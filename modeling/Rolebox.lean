import Rolebox.Graph.NoWedge
import Rolebox.Graph.DroppedArms
import Rolebox.Graph.StopAttribution
import Rolebox.Graph.HonestCompletion
import Rolebox.Graph.RunStart
import Rolebox.Graph.Codec.CodableRuns
import Rolebox.Store.BudgetCeilings
import Rolebox.Store.ExecutionFence
import Rolebox.Hashline.SerialEdits
import Rolebox.Outcome.RecoveryRuns
import Rolebox.Graph.Compiler.OrderIndependence
import Rolebox.Application.DeclareGraph
import Rolebox.Cli.InstalledRoles
import Rolebox.Dispatch.BudgetSampling
import Rolebox.Dispatch.StateLock
import Rolebox.Dispatch.StateRoundTrip
import Rolebox.Dispatch.Outbox
import Rolebox.Log.FollowOnce
import Rolebox.Log.Prune
import Rolebox.Log.Rotation
import Rolebox.Team.SoleDelivery
import Rolebox.Application.NoSilentCondition
import Rolebox.Host.AttributionIsolation
import Rolebox.Graph.ExactOutcomes
import Rolebox.Graph.LoopCounters
import Rolebox.Graph.ProgressStreak
import Rolebox.Store.ApprovalLifecycle
import Rolebox.Outcome.EffectLifecycle
import Rolebox.Hashline.KeptLines
import Rolebox.Graph.ProposalDigest
import Rolebox.Recovery.AttemptsKept
import Rolebox.Hashline.HunkMerging
import Rolebox.Hashline.FuzzyCorrection
import Rolebox.Hashline.BatchAccounting
import Rolebox.Policy.PolicyIdentity
import Rolebox.Policy.MistakenMapping
import Rolebox.Web.BodyText
import Rolebox.Services.Supervisor
import Rolebox.Dispatch.CheckpointStore
import Rolebox.Services.HotReload
import Rolebox.Web.UrlGuard
import Rolebox.Terminal.WideCells
import Rolebox.Notifications.Throttle
import Rolebox.Web.TokenBucket
import Rolebox.Web.HostPacing
import Rolebox.Graph.Compiler.StrongComponents
import Rolebox.Cli.Integrity
import Rolebox.Graph.AttemptsOnce
import Rolebox.Store.SettledOnce

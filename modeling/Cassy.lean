import Cassy.Properties.DeliveryEvidence
import Cassy.Properties.StaleDeletes
import Cassy.Properties.DiffWindow
import Cassy.Properties.PatchRoundTrip
import Cassy.Properties.PatchSerial
import Cassy.Properties.Renewal
import Cassy.Properties.Handoff
import Cassy.Properties.WorktreeRelease
import Cassy.Properties.Fencing
import Cassy.Properties.Reclaim
import Cassy.Properties.Retirement
import Cassy.Properties.MergeFact
import Cassy.Properties.Acceptance
import Cassy.Properties.IntentLoss
import Cassy.Properties.PullRegression
import Cassy.Properties.ProjectAliases
import Cassy.Properties.StageOrder
import Cassy.Properties.SingleSurface
import Cassy.Properties.PollOnce
import Cassy.Properties.EpisodeOnce
import Cassy.Properties.CloudLease
import Cassy.Properties.CreateAtomic
import Cassy.Properties.Readiness
import Cassy.Properties.LatestDelivery
import Cassy.Properties.InputQueue
import Cassy.Properties.PeerOutbox
import Cassy.Properties.FileLeases
import Cassy.Properties.SplitLife
import Cassy.Properties.SplitRedelivery
import Cassy.Properties.TimestampOrder
import Cassy.Properties.ProofTargets
import Cassy.Properties.Reminders
import Cassy.Properties.Provenance
import Cassy.Properties.HunkArith
import Cassy.Properties.GitNames
import Cassy.Properties.DiffIndices
import Cassy.Properties.Trailer
import Cassy.Properties.Verdicts
import Cassy.Properties.QueueMigration
import Cassy.Properties.Anchors
import Cassy.Properties.NamedBodies
import Cassy.Properties.Attribution
import Cassy.Properties.OwnerRows
import Cassy.Properties.ProposalRecovery
import Cassy.Properties.AskSettlement
import Cassy.Properties.OperatorDelivery
import Cassy.Properties.Abandonment
import Cassy.Properties.TeamsFallback
import Cassy.Properties.Peek
import Cassy.Properties.UnseenCount
import Cassy.Properties.StrongestWake
import Cassy.Properties.InputStream
import Cassy.Properties.Seek
import Cassy.Properties.SpawnQueue

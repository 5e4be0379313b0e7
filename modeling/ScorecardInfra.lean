import ScorecardInfra.Server.ReadAfterWrite
import ScorecardInfra.Cron.Verdicts
import ScorecardInfra.Cron.Job
import ScorecardInfra.Cron.Heartbeat
import ScorecardInfra.Cron.ShardContents
import ScorecardInfra.Cron.Publisher
import ScorecardInfra.Server.CredentialIsolation
import ScorecardInfra.Server.Contract
import ScorecardInfra.Server.Rejection
import ScorecardInfra.Server.VerifiedContent
import ScorecardInfra.Server.InclusionProof
import ScorecardInfra.Server.Membership
import ScorecardInfra.Cache.Immutability
import ScorecardInfra.Cache.Identity
import ScorecardInfra.Cache.SharedKeys
import ScorecardInfra.Cache.OriginTag
import ScorecardInfra.Cache.Staleness
import ScorecardInfra.Cache.Reuse
import ScorecardInfra.Cache.Upstream
import ScorecardInfra.Server.HexCase
import ScorecardInfra.Server.ApiFailures
import ScorecardInfra.Cron.ShardKeys
import ScorecardInfra.Cron.Transfer
import ScorecardInfra.Cron.Notices
import ScorecardInfra.Cron.Duplicates
import ScorecardInfra.Cron.InventoryFiles
import ScorecardInfra.Tokens.Retry
import ScorecardInfra.Cache.Slots
import ScorecardInfra.Cache.Progress
import ScorecardInfra.Cron.PublisherProgress
import ScorecardInfra.Cron.JobContents
import ScorecardInfra.Cron.InventoryUpdates
import ScorecardInfra.Cron.Pipeline
import ScorecardInfra.Cache.Network
import ScorecardInfra.Cron.Exports
import ScorecardInfra.Interaction.Sum
import ScorecardInfra.Server.Service
import ScorecardInfra.Server.Serving
import ScorecardInfra.Server.Visibility

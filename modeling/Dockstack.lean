import Dockstack.Server.RateLimit
import Dockstack.Server.LimiterLog
import Dockstack.Base.Machine
import Dockstack.Server.SignIn
import Dockstack.Server.SignInBound
import Dockstack.Auth.Session
import Dockstack.Auth.SessionRuns
import Dockstack.Base.Path
import Dockstack.Base.FileTree
import Dockstack.Docker.Containers
import Dockstack.Docker.Stacks
import Dockstack.Docker.ComposeProject
import Dockstack.Server.StackName
import Dockstack.Server.StackProject
import Dockstack.Server.StackHandlers
import Dockstack.Server.StackRename
import Dockstack.Server.StackClobber
import Dockstack.Web.StackFiles
import Dockstack.Base.LineScanner
import Dockstack.Base.Merge
import Dockstack.Base.PipeReader
import Dockstack.Docker.StreamCompose
import Dockstack.Docker.StreamOrder
import Dockstack.Docker.StreamProgress
import Dockstack.Docker.StreamDelivery
import Dockstack.Base.Utf8
import Dockstack.Web.SseStream
import Dockstack.Docker.DigestCache
import Dockstack.Base.Regex
import Dockstack.Base.Words
import Dockstack.Docker.Drift
import Dockstack.Docker.DriftOneOff
import Dockstack.Docker.Images
import Dockstack.Docker.StackUpdates
import Dockstack.Docker.StackVerdicts
import Dockstack.Auth.ApiKeys
import Dockstack.Base.Burst
import Dockstack.Auth.KeyRateLimit
import Dockstack.Server.Gates
import Dockstack.Server.GateRuns
import Dockstack.Server.GateMeter
import Dockstack.Auth.Passkeys
import Dockstack.Auth.PasskeyCounters
import Dockstack.Auth.PasskeyChallenges
import Dockstack.Auth.ChallengeBinding
import Dockstack.Auth.Credentials
import Dockstack.Auth.ResetTokens
import Dockstack.Base.OneTime
import Dockstack.Server.ResetPassword
import Dockstack.Auth.OAuth
import Dockstack.Server.OAuthLink
import Dockstack.Server.OAuthOrphans
import Dockstack.Db.Seed
import Dockstack.Base.Decimal
import Dockstack.Db.Migrate
import Dockstack.Db.MigrateRuns
import Dockstack.Base.Json
import Dockstack.Ws.Exec
import Dockstack.Ws.ExecInput
import Dockstack.Ws.ExecSessions
import Dockstack.Docker.StackLogs
import Dockstack.Docker.StackLogsWorker
import Dockstack.Docker.StackLogsRuns
import Dockstack.Ws.Logs
import Dockstack.Ws.LogsEnds
import Dockstack.Docker.ImageChecks
import Dockstack.Base.Sorting
import Dockstack.Docker.Redeploy
import Dockstack.Server.StackActions
import Dockstack.Server.StackRefresh
import Dockstack.Base.PathWithin
import Dockstack.Server.StackGuard
import Dockstack.Docker.ComposeValidate
import Dockstack.Server.StackFileHandlers
import Dockstack.Server.StackSavePath
import Dockstack.Server.StackSaveRead
import Dockstack.Server.StackSaveAtomic
import Dockstack.Server.StackRenameBack
import Dockstack.Server.StackDestroy
import Dockstack.Docker.ContainerInfo
import Dockstack.Docker.StackContainers
import Dockstack.Docker.StackStatus
import Dockstack.Docker.DriftVerdict
import Dockstack.Docker.NetworkModes
import Dockstack.Base.LineBreaks
import Dockstack.Docker.NetworkModeLines
import Dockstack.Base.Quote
import Dockstack.Docker.ComposeMessages
import Dockstack.Docker.ContainerURLs
import Dockstack.Auth.Profile
import Dockstack.Server.UpdateUser
import Dockstack.Server.UpdateUserRuns
import Dockstack.Server.UserRows
import Dockstack.Base.Expiry
import Dockstack.Base.Stutter
import Dockstack.Server.AuthCleanup
import Dockstack.Server.OAuthSignature
import Dockstack.Auth.Password
import Dockstack.Base.JsonEncode
import Dockstack.Docker.RegistryAuth
import Dockstack.Docker.RegistryHeader
import Dockstack.Docker.LogLines
import Dockstack.Server.LimiterMemory
import Dockstack.Base.WorkerPool
import Dockstack.Docker.Stats
import Dockstack.Docker.DriftPool
import Dockstack.Docker.ImageCheckRace
import Dockstack.Base.Service
import Dockstack.Server.StackSlots
import Dockstack.Server.StackIsolation
import Dockstack.Server.StackStore
import Dockstack.Server.AccountRuns
import Dockstack.Server.Accounts
import Dockstack.Server.PasswordRuns
import Dockstack.Server.OAuthFlow
import Dockstack.Web.ActionDialog
import Dockstack.Base.Utf8Lines
import Dockstack.Web.ActionDisplay
import Dockstack.Base.StableSort
import Dockstack.Web.LogView
import Dockstack.Web.LogDisplay

import FetchTask.EmailVerification
import FetchTask.Lib.Dict
import FetchTask.TempAccess
import FetchTask.TempAccess.Conservation
import FetchTask.Accounts
import FetchTask.Accounts.Ledger
import FetchTask.Store.Meta
import FetchTask.Store.Transitions
import FetchTask.Store.StatusMachine
import FetchTask.Lib.Prog
import FetchTask.Queue.Redis
import FetchTask.Queue.Calls
import FetchTask.Queue.AtMostOnce
import FetchTask.Lib.Handover
import FetchTask.Queue.NoTaskLost
import FetchTask.Lifecycle.Query
import FetchTask.Lifecycle.Watchdog
import FetchTask.Lib.Knowledge
import FetchTask.Lifecycle.Refunds
import FetchTask.Lifecycle.Discipline
import FetchTask.Lifecycle.FailureRefunded
import FetchTask.Lifecycle.RefundOnlyFailed
import FetchTask.Submission
import FetchTask.Creation
import FetchTask.Creation.Idempotent
import FetchTask.PointCards
import FetchTask.PointCards.CreditedOnce
import FetchTask.Accounts.Credit
import FetchTask.Accounts.OnePass
import FetchTask.Rotation
import FetchTask.Queue.Capacity
import FetchTask.Queue.WithinCapacity
import FetchTask.Queue.LiveExecution
import FetchTask.Lifecycle.VideoKept
import FetchTask.Lib.Sum
import FetchTask.Lifecycle.RotatedRefunds
import FetchTask.Batch.StatusFollows
import FetchTask.Store.Branches
import FetchTask.Memberships
import FetchTask.Memberships.TimeKept
import FetchTask.Store.Budget
import FetchTask.Resilience
import FetchTask.Resilience.Probes
import FetchTask.Lib.Locks
import FetchTask.Queue.Claims
import FetchTask.Queue.RunningLimit
import FetchTask.Lib.Raising
import FetchTask.UpdateController
import FetchTask.UpdateController.Rollback
import FetchTask.Lib.Json
import FetchTask.StorageMigrate
import FetchTask.StorageMigrate.Refused
import FetchTask.Batch.RowSteps
import FetchTask.Scheduling
import FetchTask.Scheduling.Tick
import FetchTask.Scheduling.Linked
import FetchTask.Scheduling.LinkKept
import FetchTask.Scheduling.Creating
import FetchTask.Scheduling.Accounted
import FetchTask.Scheduling.AllOrNothing
import FetchTask.TempAccess.Writers
import FetchTask.TempAccess.Views
import FetchTask.AccountProxies
import FetchTask.AccountProxies.Kept
import FetchTask.Accounts.Merging
import FetchTask.Lib.Replace
import FetchTask.Lib.Tally
import FetchTask.Lib.Held
import FetchTask.DataBackup
import FetchTask.DataBackup.Restoring
import FetchTask.ApiProxyPool
import FetchTask.ApiProxyPool.Accounted
import FetchTask.BrowserPool
import FetchTask.BrowserPool.Accounted
import FetchTask.TaskMihomo
import FetchTask.TaskMihomo.Limits
import FetchTask.Retrying
import FetchTask.Retrying.Once
import FetchTask.Lib.Collation
import FetchTask.Lib.Like
import FetchTask.Lib.Sorting
import FetchTask.TaskPage
import FetchTask.Batch.Turns
import FetchTask.Lib.Decimal
import FetchTask.Resilience.FairCapacity
import FetchTask.Billing
import FetchTask.TempAccess.Migration
import FetchTask.Lib.Expiring
import FetchTask.RegistrationSecurity
import FetchTask.RegistrationSecurity.Backends
import FetchTask.Lib.TokenBucket
import FetchTask.Resilience.KeepsRate
import FetchTask.Lib.SlidingWindow
import FetchTask.RateLimit
import FetchTask.RateLimit.Backends
import FetchTask.RateLimit.Windows
import FetchTask.AccountCleanup
import FetchTask.AccountCleanup.History
import FetchTask.Accounts.BackCharging
import FetchTask.Accounts.Cookies
import FetchTask.Accounts.Importing
import FetchTask.Memberships.TwoPasses
import FetchTask.TaskPage.Agree
import FetchTask.TaskPage.Plain
import FetchTask.UpdateController.Flag
import FetchTask.Lib.Uri
import FetchTask.AccountProxies.Encoding
import FetchTask.Queue.DueOrder
import FetchTask.Lib.Alone
import FetchTask.Lib.Bursts
import FetchTask.Queue.Preference
import FetchTask.Queue.FileClaims
import FetchTask.Queue.ThreeToOne
import FetchTask.Lib.Offload
import FetchTask.QianwenProbe
import FetchTask.QianwenProbe.Freed
import FetchTask.Lib.Padded
import FetchTask.Lib.Staging
import FetchTask.BatchAssets
import FetchTask.BatchAssets.Saving
import FetchTask.BatchAssets.InStep
import FetchTask.Lib.Pacer
import FetchTask.Pacing
import FetchTask.UploadSlots
import FetchTask.UploadSlots.GivenBack
import FetchTask.Users
import FetchTask.Users.Changes
import FetchTask.Users.Consistent
import FetchTask.Users.InStep
import FetchTask.Purchases
import FetchTask.Purchases.Effects
import FetchTask.Purchases.Paid
import FetchTask.Lib.Rounding
import FetchTask.Supervisor
import FetchTask.Supervisor.Pool
import FetchTask.Supervisor.Passes
import FetchTask.QueryLock
import FetchTask.ClientSessions
import FetchTask.ClientSessions.Honest
import FetchTask.ClientSessions.Backends
import FetchTask.ProxyNodes
import FetchTask.ProxyNodes.Cooling
import FetchTask.ProxyNodes.Choice
import FetchTask.InvitationCodes
import FetchTask.InvitationCodes.Counted
import FetchTask.InvitationCodes.Total

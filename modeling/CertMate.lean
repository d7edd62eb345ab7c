import CertMate.CallTrees
import CertMate.ThreadPools
import CertMate.KeyedTables
import CertMate.UniqueTables
import CertMate.CertificateModel
import CertMate.DomainValidation
import CertMate.Timestamps
import CertMate.FileSystem
import CertMate.CertificateFiles
import CertMate.PublishProtocol
import CertMate.AtomicPublish
import CertMate.SqliteStore
import CertMate.ServiceWorld
import CertMate.CertificateService
import CertMate.ServiceProtocol
import CertMate.ServiceSteps
import CertMate.ServicePool
import CertMate.GateSteps
import CertMate.DeleteExclusion
import CertMate.LoneCreations
import CertMate.RevokedTerminal
import CertMate.EngineExclusion
import CertMate.OperationCalls
import CertMate.PacedRuns
import CertMate.LifeCyclePace
import CertMate.SettingsCommute
import CertMate.SchedulerController
import CertMate.SchedulerRuns
import CertMate.StoredPolicy
import CertMate.CredentialModel
import CertMate.CredentialService
import CertMate.CredentialContents
import CertMate.CredentialRounds
import CertMate.CredentialRaces
import CertMate.LoginLimiter
import CertMate.LoginLockout
import CertMate.LoginSequence
import CertMate.LoginRaces
import CertMate.AcmeEngine
import CertMate.SessionManager
import CertMate.HttpHandlers
import CertMate.ServiceCalls
import CertMate.HttpProtocol
import CertMate.HttpPool
import CertMate.FreshPassword
import CertMate.KeyAudit
import CertMate.Bookkeeping
import CertMate.OperationEnds
import CertMate.LastGood
import CertMate.AcceptedCredentials
import CertMate.IssuableRequests
import CertMate.EngineRuns
import CertMate.NotDueRuns
import CertMate.ChallengeFiles
import CertMate.RenewalWindows
import CertMate.ThreadLedgers
import CertMate.AuditedJobs
import CertMate.OperationViews
import CertMate.FirstIssue
import CertMate.CompleteBackups
import CertMate.DeleteTransaction
import CertMate.Deletions
import CertMate.RankedRows
import CertMate.DecimalTexts
import CertMate.CivilDates
import CertMate.TimestampOrder
import CertMate.TimestampParse
import CertMate.RecordQueries
import CertMate.JsonTexts
import CertMate.IntegerTexts
import CertMate.CertificateColumns
import CertMate.CreatedValues
import CertMate.CertificateStore
import CertMate.PatchedTexts
import CertMate.OutputRedaction
import CertMate.DomainNames
import CertMate.NormalizedDomains
import CertMate.RedundantDomains
import CertMate.FormDomains
import CertMate.CommandLines
import CertMate.EngineCommands
import CertMate.EngineRequests
import CertMate.SameEntry
import CertMate.RunTriples
import CertMate.PublishFailures
import CertMate.PublishEnds
import CertMate.PublishResults
import CertMate.PublisherRoot
import CertMate.StatusClosing
import CertMate.RestartRecovery
import CertMate.OwnFiles
import CertMate.DefaultDirectories
import CertMate.StorableRequests
import CertMate.IntegerRanges
import CertMate.ChildEnvironment
import CertMate.JobSearch
import CertMate.ScanRuns
import CertMate.PrunedLimiter
import CertMate.TypedPairs
import CertMate.LineTexts
import CertMate.SelfSignedConfig
import CertMate.EnvFile
import CertMate.Bystanders
import CertMate.ProgramTraces
import CertMate.RetryProtocol
import CertMate.RetrySteps
import CertMate.RenewalRetries
import CertMate.Tallies
import CertMate.CertificateParser
import CertMate.PrefixWriters
import CertMate.BoundedBuffers
import CertMate.Readers
import CertMate.SetupHelper
import CertMate.AgreedFiles
import CertMate.AgreedRuns
import CertMate.ThreadNotes
import CertMate.ClosedRuns
import CertMate.RecordStates
import CertMate.LifeCycles
import CertMate.ScanPosts
import CertMate.ScanProgress
import CertMate.LockRelease
import CertMate.JobHistory
import CertMate.DeployScript
import CertMate.EnvProgress
import CertMate.DeployProtocol
import CertMate.DeployRuns
import CertMate.TableViews
import CertMate.TwinRuns
import CertMate.CredentialHandlers
import CertMate.CredentialTwins
import CertMate.EngineCalls
import CertMate.EngineReplies

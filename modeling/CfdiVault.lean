import CfdiVault.Library.Text
import CfdiVault.Library.Calendar
import CfdiVault.Library.Program
import CfdiVault.Library.Keyed
import CfdiVault.Library.Json
import CfdiVault.Library.Decimal
import CfdiVault.Library.IsoFormat
import CfdiVault.Library.JsonKeys
import CfdiVault.Library.JsonText
import CfdiVault.Library.UnitOfWork
import CfdiVault.Library.MessageQueue
import CfdiVault.Library.SkipSearch
import CfdiVault.Domain
import CfdiVault.SatContract
import CfdiVault.LiveRequestState
import CfdiVault.LiveStateUpdates
import CfdiVault.LiveStateRace
import CfdiVault.AsyncVerify
import CfdiVault.AsyncVerifyRuns
import CfdiVault.AsyncVerifyAttempts
import CfdiVault.LiveRegistration
import CfdiVault.AsyncVerifyCrash
import CfdiVault.AsyncVerifyOutcome
import CfdiVault.AsyncVerifyBackoff
import CfdiVault.AsyncVerifyOrder
import CfdiVault.LiveCommands
import CfdiVault.LivePermit
import CfdiVault.LivePermitPolicy
import CfdiVault.SatSimulator
import CfdiVault.VerifyDueCommand
import CfdiVault.PackageDownload
import CfdiVault.AsyncVerifyPackages
import CfdiVault.SatBackfill
import CfdiVault.BackfillPeriods
import CfdiVault.BackfillLatest
import CfdiVault.LiveSubmit
import CfdiVault.LiveSubmitLaw
import CfdiVault.Reconciliation
import CfdiVault.RecoveryDb
import CfdiVault.RecoveryStorage
import CfdiVault.RecoveryWorld
import CfdiVault.RecoveryPayload
import CfdiVault.RecoveryService
import CfdiVault.RecoverySteps
import CfdiVault.RecoveryJob
import CfdiVault.RecoveryCalls
import CfdiVault.RecoveryFailure
import CfdiVault.QueueMessages
import CfdiVault.QueueAdapters
import CfdiVault.Library.FifoDelivery
import CfdiVault.QueueRefusals
import CfdiVault.RecoveryWrites
import CfdiVault.RecoveryBooks
import CfdiVault.RecoveryActions
import CfdiVault.RecoveryUpsert
import CfdiVault.RecoveryXml
import CfdiVault.EvidenceWrites
import CfdiVault.RecoveryRuns
import CfdiVault.Library.EventLog
import CfdiVault.Library.ReadModifyWrite
import CfdiVault.RecoveryAudit
import CfdiVault.RecoveryStatus
import CfdiVault.RecoveryStates
import CfdiVault.RecoveryPending
import CfdiVault.RecoveryEvidence
import CfdiVault.Library.Interleaving
import CfdiVault.RecoveryAsking
import CfdiVault.RecoveryRace
import CfdiVault.SatRequestBuilders
import CfdiVault.LiveRequestGuard
import CfdiVault.CriteriaHash
import CfdiVault.BackfillRuns
import CfdiVault.LiveFollowUp
import CfdiVault.Library.PosixPath
import CfdiVault.PackageProcessor
import CfdiVault.PackageKeys
import CfdiVault.PackageMemory
import CfdiVault.PackageEvidence
import CfdiVault.StoragePaths
import CfdiVault.PackageScreening
import CfdiVault.ProfileSpelling
import CfdiVault.Library.UndoLog
import CfdiVault.SetupCore
import CfdiVault.SetupTransaction
import CfdiVault.SetupRollback
import CfdiVault.SetupAtomicity
import CfdiVault.SetupOutcome
import CfdiVault.Library.FirstAppearance
import CfdiVault.Library.TwoIndexes
import CfdiVault.SatOrchestration
import CfdiVault.MetadataFirstRun
import CfdiVault.SatRegistry
import CfdiVault.RegisteredPackages
import CfdiVault.Library.UnicodeDigits
import CfdiVault.Library.ElementTree
import CfdiVault.CfdiXml
import CfdiVault.CfdiComplements
import CfdiVault.VaultImport
import CfdiVault.Library.Utf8
import CfdiVault.Library.Dictionary
import CfdiVault.Library.CsvReader
import CfdiVault.Library.CsvLines
import CfdiVault.MetadataParser
import CfdiVault.MetadataLines
import CfdiVault.Library.IsoDateText
import CfdiVault.Library.CsvWriter
import CfdiVault.MetadataAcceptance
import CfdiVault.MetadataReplay
import CfdiVault.PackagePasses
import CfdiVault.SatAuth
import CfdiVault.Library.ByteText
import CfdiVault.MinimalPdf
import CfdiVault.Library.Markup
import CfdiVault.Library.SqlLike
import CfdiVault.RecoverySearch
import CfdiVault.RecoveryHtml
import CfdiVault.Library.Substitution
import CfdiVault.LiveMessageRedaction
import CfdiVault.SearchIndex
import CfdiVault.SearchRuns
import CfdiVault.Config
import CfdiVault.ConfigAcceptance
import CfdiVault.ConfigFile
import CfdiVault.ConfigSafety
import CfdiVault.OnboardingConfig
import CfdiVault.ConfigRuns
import CfdiVault.Library.References
import CfdiVault.RecoveryBacked
import CfdiVault.RecoveryServiced
import CfdiVault.RecoverySubjects
import CfdiVault.Library.KeyedEvolution
import CfdiVault.LiveLifecycle

import HiWaveTel.Foundation.Run
import HiWaveTel.Foundation.History
import HiWaveTel.Foundation.Table
import HiWaveTel.Foundation.Text
import HiWaveTel.Foundation.Selection
import HiWaveTel.Foundation.Retry
import HiWaveTel.Foundation.Attempts
import HiWaveTel.Foundation.KeepFirst
import HiWaveTel.Foundation.Quoting
import HiWaveTel.Foundation.Dict
import HiWaveTel.Foundation.Lines
import HiWaveTel.Foundation.Unicode
import HiWaveTel.Foundation.Custody
import HiWaveTel.Foundation.Script
import HiWaveTel.Foundation.Counting
import HiWaveTel.Foundation.Retention
import HiWaveTel.Models
import HiWaveTel.MmcliClient
import HiWaveTel.InboundFilters
import HiWaveTel.SnapshotPolling
import HiWaveTel.WebhookOutbox
import HiWaveTel.OutboxInterleaving
import HiWaveTel.DeadLetterQueue
import HiWaveTel.Persist
import HiWaveTel.MergeLaw
import HiWaveTel.ConcurrentPersist
import HiWaveTel.Freshness
import HiWaveTel.DlqRetry
import HiWaveTel.PersistSteps
import HiWaveTel.InboundIntake
import HiWaveTel.OutboundDispatch
import HiWaveTel.EchoRace
import HiWaveTel.OutboundQueue
import HiWaveTel.AcceptedSends
import HiWaveTel.WebhookWorker
import HiWaveTel.AttemptsCounter
import HiWaveTel.OutboxDrain
import HiWaveTel.DeliveredTerminal
import HiWaveTel.RepeatedDelivery
import HiWaveTel.MmcliRuns
import HiWaveTel.ModemIndex
import HiWaveTel.DispatchOutcome
import HiWaveTel.WebhookCompleteness
import HiWaveTel.DlqRuns
import HiWaveTel.DeliveryRetries
import HiWaveTel.WebhookUrls
import HiWaveTel.CreateSmsArgument
import HiWaveTel.MmcliOutput
import HiWaveTel.ShowSms
import HiWaveTel.SmsReport
import HiWaveTel.ForgedMetadata
import HiWaveTel.TransientRetries
import HiWaveTel.EchoText
import HiWaveTel.VanishedPaths
import HiWaveTel.StaleRefresh
import HiWaveTel.StorageRotation
import HiWaveTel.CleanupCommand
import HiWaveTel.ModemIdentity
import HiWaveTel.ModemReadiness
import HiWaveTel.ModemAvailability
import HiWaveTel.SqliteRetryLoops
import HiWaveTel.Isoformat
import HiWaveTel.MergeAlgebra
import HiWaveTel.DecoderAgreement
import HiWaveTel.ModemReady
import HiWaveTel.PinSubmissions
import HiWaveTel.ModemRegistry
import HiWaveTel.WaitModemReady
import HiWaveTel.QueueWaiting
import HiWaveTel.OutboundLifecycle
import HiWaveTel.WebhookApi
import HiWaveTel.DbusListener
import HiWaveTel.JsonText
import HiWaveTel.WebhookBody
import HiWaveTel.WatcherSupervisor
import HiWaveTel.RegistryRuns
import HiWaveTel.WebhookRestarts
import HiWaveTel.QueueSingletons
import HiWaveTel.SnapshotSync
import HiWaveTel.PinOwnership
import HiWaveTel.IntakeRestarts

import Stacklab.SelfUpdate.Drain
import Stacklab.SelfUpdate.FinalRuns
import Stacklab.Backup.WriteAheadRuns
import Stacklab.Maintenance.PruneSafety
import Stacklab.BackupHelper.TokenSafety
import Stacklab.Backup.HeldRestoreRuns
import Stacklab.Backup.ExtractSafety
import Stacklab.Backup.VerifiedCopies
import Stacklab.Auth.PasswordSafety
import Stacklab.Jobs.LifeSafety
import Stacklab.Backup.CatalogSafety
import Stacklab.Backup.ReplaySafety
import Stacklab.Backup.ProtectionSafety
import Stacklab.Backup.SchedulerSafety
import Stacklab.Scheduler.PassSafety
import Stacklab.Jobs.CancelWorkflow
import Stacklab.Auth.LockoutSafety
import Stacklab.Terminal.CloseSafety
import Stacklab.Backup.ConfigSafety
import Stacklab.Store.AuditPages
import Stacklab.Store.AuditSearch
import Stacklab.AdminHelper.RepairSafety
import Stacklab.Jobs.Exclusion
import Stacklab.Backup.RetentionCalendar
import Stacklab.Backup.DiagnosticStream
import Stacklab.Backup.EvidenceMigration
import Stacklab.Stacks.RuntimeState
import Stacklab.Auth.ForwardedHeaders
import Stacklab.Notifications.RuntimeAlerts
import Stacklab.HostInfo.PublicIP
import Stacklab.ImageUpdates.ImageRef

import Dbx.Guarantees.UnsafeCuts
import Dbx.Guarantees.OutcomeAgreement
import Dbx.Guarantees.CallDiscipline
import Dbx.Guarantees.TransitionHistory
import Dbx.Guarantees.FederationVisibility
import Dbx.Guarantees.RiskAgreement
import Dbx.Guarantees.GridRollback
import Dbx.Guarantees.NestedQueries
import Dbx.Guarantees.QuotedNames
import Dbx.Guarantees.OracleReads
import Dbx.Guarantees.ImportReader
import Dbx.Guarantees.MergedInserts
import Dbx.Guarantees.RebaseMerge
import Dbx.Guarantees.TaskRegistry
import Dbx.Guarantees.EtcdConfirmation
import Dbx.Guarantees.AtomicChange
import Dbx.Guarantees.UnboundedFilter
import Dbx.Guarantees.SelfDiff
import Dbx.Guarantees.ShardedDiff
import Dbx.Guarantees.DeclaredTypes
import Dbx.Guarantees.ConsulBulk
import Dbx.Guarantees.SnapshotRestore
import Dbx.Guarantees.PostgresLiterals
import Dbx.Guarantees.PostgresArrays
import Dbx.Guarantees.RedundantParentheses
import Dbx.Guarantees.TopLevelCuts
import Dbx.Guarantees.ComparePaging
import Dbx.Guarantees.ExactDiff
import Dbx.Guarantees.ImportHeaders
import Dbx.Guarantees.KeysetPages
import Dbx.Guarantees.StateEntry
import Dbx.Guarantees.UnlockWindows
import Dbx.Guarantees.ConfigChanges
import Dbx.Guarantees.SessionTurns
import Dbx.Guarantees.SqlBatches

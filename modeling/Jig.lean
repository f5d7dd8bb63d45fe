import Jig.Bootstrap.ManagedPaths
import Jig.Cargo.ImpactExact
import Jig.DevProxy.RouteRuns
import Jig.FileBudget.Measurement
import Jig.FileBudget.Ratchet
import Jig.FileBudget.WaivedDebt
import Jig.Loops.AtMostOnce
import Jig.Loops.ExclusiveScopes
import Jig.Loops.LedgerRuns
import Jig.Loops.Renewal
import Jig.Policy.TokenComplexity
import Jig.Repository.BoundedEvidence
import Jig.Repository.CargoAssignment
import Jig.Repository.DependencyCycle
import Jig.Repository.ExactPaths
import Jig.Repository.InputDigest
import Jig.Repository.PlannedFiles
import Jig.Runtime.Confluence
import Jig.Runtime.ExecutionLease
import Jig.Runtime.Reservation
import Jig.Runtime.SourceEpochSafety
import Jig.State.ArchiveExact
import Jig.State.DurableRuns
import Jig.State.ResourceLeases
import Jig.Typescript.Workspace
import Jig.Vault.Aad
import Jig.Vault.BackupRoundTrip
import Jig.Vault.Base32
import Jig.Vault.CrashAtomic
import Jig.Vault.ExecOutputExact
import Jig.Vault.NoRollback

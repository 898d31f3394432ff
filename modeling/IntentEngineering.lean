import IntentEngineering.AgentHost.Custody
import IntentEngineering.Capture.CheckpointContract
import IntentEngineering.Capture.EvidenceIdentity
import IntentEngineering.Capture.LinkHeader
import IntentEngineering.Capture.Markdown
import IntentEngineering.Capture.Pagination
import IntentEngineering.Capture.ResourceUri
import IntentEngineering.Context.Visibility
import IntentEngineering.Graphs.ApplierSpec
import IntentEngineering.Library.TimeSpan
import IntentEngineering.Mutations.CommitOutcomes
import IntentEngineering.Mutations.ExecutionAccounts
import IntentEngineering.Mutations.Independence
import IntentEngineering.Mutations.PlanAgreement
import IntentEngineering.Policy.Preservation
import IntentEngineering.Reconcile.ResolutionRuns
import IntentEngineering.Storage.ReplayAgreement
import IntentEngineering.Storage.TransactionAtomicity
import IntentEngineering.Stores.CaseLifecycle
import IntentEngineering.Stores.IngestionLedger
import IntentEngineering.Stores.LedgerFraming
import IntentEngineering.Stores.PreflightAgreement
import IntentEngineering.Stores.StoreRecovery
import IntentEngineering.Workflow.AuthorizationRuns
import IntentEngineering.Reconcile.DetectionOrder
import IntentEngineering.Render.Inertness
import IntentEngineering.Storage.ReadBudget
import IntentEngineering.Storage.StrictSafety
import IntentEngineering.Stores.CaseMigration
import IntentEngineering.Sync.LedgerCurrency
import IntentEngineering.ControlPlane.AuthoritySafety
import IntentEngineering.Workflow.BootstrapSafety
import IntentEngineering.Reconcile.AssurancePrivacy

import FinanceCore.Calculators.RuntimeAgreement
import FinanceCore.Calculators.ParticipantOrder
import FinanceCore.ParserProposals.ReaderAgreement
import FinanceCore.ReceiptFinalization.Fingerprint
import FinanceCore.ReceiptFinalization.CalculatorRefinement
import FinanceCore.Capture.Lifecycle
import FinanceCore.Capture.Replies
import FinanceCore.GuidedEdit.Lifecycle
import FinanceCore.FinanceBridge.WholeCard
import FinanceCore.Intake.GuidedControls
import FinanceCore.Reconciliation.BatchMatching
import FinanceCore.Reconciliation.ApplyReplay
import FinanceCore.OpenclawStagingBridge.DeliveryReceiptProof
import FinanceCore.OpenclawStagingBridge.HumanActionRuns
import FinanceCore.LifecycleV2.AuditAgreement
import FinanceCore.LifecycleV2.AuditSoundness
import FinanceCore.SyntheticNativeAuthority.Capacity
import FinanceCore.Reconciliation.FinalMutation
import FinanceCore.Calculators.Apportionment
import FinanceCore.Calculators.DerivedParticipants
import FinanceCore.FinanceBridge.TurnQueue
import FinanceCore.DerivedIds
import FinanceCore.OpenclawStagingBridge.CallbackTokens
import FinanceCore.ParserProposals.Coverage
import FinanceCore.SyntheticNativeAuthority.Tokens

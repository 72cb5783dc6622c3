import ScriptAudit.Main
import ScriptAudit.Proofs.Exclusion
import ScriptAudit.Proofs.FailedFiles
import ScriptAudit.Proofs.Growth
import ScriptAudit.Proofs.Interleaving
import ScriptAudit.Proofs.ListingAgainstWalk
import ScriptAudit.Proofs.Parentheses
import ScriptAudit.Proofs.SuspensionOwnership
import ScriptAudit.Proofs.AwaitedCalls
import ScriptAudit.Proofs.Comments
import ScriptAudit.Proofs.AuditAfterSaving
import ScriptAudit.Proofs.ConcurrentSaving
import ScriptAudit.Proofs.WholeTree
import ScriptAudit.Proofs.LegibleTrees
import ScriptAudit.Proofs.AsyncAccounting
import ScriptAudit.Proofs.WalkedFiles
import ScriptAudit.Proofs.UsageTiers
import ScriptAudit.Proofs.InventoryBlocks
import ScriptAudit.Proofs.LeastFreeName
import ScriptAudit.Proofs.UncallableNames
import ScriptAudit.Proofs.Percentages
import ScriptAudit.Proofs.ReadingBack
import ScriptAudit.Proofs.SourceSuffixes

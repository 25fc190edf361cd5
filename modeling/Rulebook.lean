import Rulebook.Config.Summary
import Rulebook.Main
import Rulebook.Service.Call
import Rulebook.Proofs.Analytics.Dashboard
import Rulebook.Proofs.Analytics.Lifetime
import Rulebook.Proofs.Analytics.Notation
import Rulebook.Proofs.Analytics.Retention
import Rulebook.Proofs.Analytics.Trend
import Rulebook.Proofs.Engine.Accounting
import Rulebook.Proofs.Engine.Admission
import Rulebook.Proofs.Engine.Linearization
import Rulebook.Proofs.Engine.Publishing
import Rulebook.Proofs.Engine.Requests
import Rulebook.Proofs.Engine.Trial
import Rulebook.Proofs.Evaluation.Batch
import Rulebook.Proofs.Evaluation.Coherence
import Rulebook.Proofs.Evaluation.Completion
import Rulebook.Proofs.Evaluation.Partiality
import Rulebook.Proofs.Json.Path
import Rulebook.Proofs.Rules.Binding
import Rulebook.Proofs.Rules.Cascade
import Rulebook.Proofs.Rules.Creation
import Rulebook.Proofs.Rules.Integrity
import Rulebook.Proofs.Rules.Loading
import Rulebook.Proofs.Rules.Paging
import Rulebook.Proofs.Rules.Patching
import Rulebook.Proofs.Rules.Seeding
import Rulebook.Proofs.Rules.Undoing
import Rulebook.Proofs.Sandbox.Caching
import Rulebook.Proofs.Sandbox.Frame
import Rulebook.Proofs.Sandbox.Receiving
import Rulebook.Proofs.Sandbox.Storing
import Rulebook.Proofs.Stream.Reckoning

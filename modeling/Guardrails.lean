import Guardrails.Decimal.Float
import Guardrails.Main
import Guardrails.Proofs.Allow.Writing
import Guardrails.Proofs.Analyzer.Batch
import Guardrails.Proofs.Analyzer.Compact
import Guardrails.Proofs.Analyzer.Directives
import Guardrails.Proofs.Analyzer.Roots
import Guardrails.Proofs.Analyzer.Severities
import Guardrails.Proofs.Analyzer.Targets
import Guardrails.Proofs.Analyzer.TestFiles
import Guardrails.Proofs.Analyzer.WellFormed
import Guardrails.Proofs.Config.Sections
import Guardrails.Proofs.Report.Canonical
import Guardrails.Proofs.Report.Encoding
import Guardrails.Proofs.Report.Formats
import Guardrails.Proofs.Report.Merging
import Guardrails.Proofs.Rule.Trailing
import Guardrails.Proofs.Rules.Comments
import Guardrails.Proofs.Rules.Errors
import Guardrails.Proofs.Rules.Events
import Guardrails.Proofs.Rules.Factory
import Guardrails.Proofs.Rules.Globals
import Guardrails.Proofs.Rules.Listeners
import Guardrails.Proofs.Rules.Markup
import Guardrails.Proofs.Rules.Notifier
import Guardrails.Proofs.Rules.Services
import Guardrails.Proofs.Rules.Startup
import Guardrails.Proofs.Rules.State
import Guardrails.Proofs.Source.Offsets
import Guardrails.Proofs.Tree.Binding
import Guardrails.Proofs.Tree.Paths
import Guardrails.Proofs.Tree.Patterns
import Guardrails.Proofs.Walk.Lifecycle
import Guardrails.Proofs.Walk.Subscribers

import LintDirectives.Main
import LintDirectives.Proofs.Directive.Reason
import LintDirectives.Proofs.Expectation.Fewer
import LintDirectives.Proofs.Expectation.Order
import LintDirectives.Proofs.Inspection.Storing
import LintDirectives.Proofs.Inspection.Unclosed
import LintDirectives.Proofs.LineIndex.Conversion
import LintDirectives.Proofs.Session.Accounting
import LintDirectives.Proofs.Session.Calls
import LintDirectives.Proofs.Session.Interleaving
import LintDirectives.Proofs.Suppression.Independence
import LintDirectives.Proofs.Suppression.Nesting
import LintDirectives.Proofs.Suppression.Policy
import LintDirectives.Proofs.Suppression.Replay
import LintDirectives.Proofs.Session.History
import LintDirectives.Proofs.Command.Reports
import LintDirectives.Proofs.Directive.CommentLines
import LintDirectives.Proofs.Session.Untouched
import LintDirectives.Proofs.Directive.Writing
import LintDirectives.Proofs.Directive.CommentBodies
import LintDirectives.Proofs.Expectation.Target
import LintDirectives.Proofs.Expectation.Binding
import LintDirectives.Proofs.Json.Parts
import LintDirectives.Proofs.Json.Words
import LintDirectives.Proofs.Json.Rereading
import LintDirectives.Proofs.Json.Bounds
import LintDirectives.Proofs.Json.Fields
import LintDirectives.Proofs.Json.Decode
import LintDirectives.Proofs.Json.Embedded
import LintDirectives.Proofs.Diagnostic.Rereading
import LintDirectives.Proofs.Report.Rereading
import LintDirectives.Proofs.Report.Exchange
import LintDirectives.Proofs.Suppression.History
import LintDirectives.Proofs.Tree.Tour
import LintDirectives.Proofs.Text.Trim
import LintDirectives.Proofs.Directive.Separator
import LintDirectives.Proofs.Directive.RuleList
import LintDirectives.Proofs.Expectation.Unmet
import LintDirectives.Proofs.LineIndex.Lookup
import LintDirectives.Proofs.Directive.SeveralLines
import LintDirectives.Proofs.Inspection.CommentNodes
import LintDirectives.Proofs.Inspection.Nested
import LintDirectives.Proofs.LineIndex.Scan
import LintDirectives.Proofs.LineIndex.Limits
import LintDirectives.Proofs.LineIndex.Guarded
import LintDirectives.Proofs.PlainText.Paragraphs
import LintDirectives.Proofs.Json.Grammar
import LintDirectives.Proofs.Json.Spelling
import LintDirectives.Proofs.Config.Decoding
import LintDirectives.Proofs.LineIndex.Access

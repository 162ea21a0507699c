import LintDirectives.Diagnostic
import LintDirectives.Suppression

/-!
# Applying suppressed ranges

A diagnostic is dropped when it lies in a range that suppresses its rule.  A
diagnostic without a place in the document is kept.
-/

namespace LintDirectives.SuppressedRange

/-- Some range suppresses a report of `rule` at byte `offset`. -/
def ignored (ranges : List SuppressedRange) (offset : Nat) (rule : String) : Bool :=
  ranges.any (·.suppresses offset rule)

/-- The diagnostic is not suppressed. -/
def keeps (ranges : List SuppressedRange) (index : LineIndex) (diagnostic : Diagnostic) : Bool :=
  (diagnostic.offset? index).all fun offset => !ignored ranges offset diagnostic.rule

/-- The diagnostics that are not suppressed. -/
def apply (ranges : List SuppressedRange) (index : LineIndex) (diagnostics : List Diagnostic) :
    List Diagnostic :=
  diagnostics.filter (keeps ranges index)

end LintDirectives.SuppressedRange

import LintDirectives.Diagnostic
import LintDirectives.Expectation

/-!
# Checking expectations

Each expectation, in order, consumes the first diagnostic that is still there, lies
in its window and has an accepted rule.  What is left is reported; after it comes a
diagnostic for each expectation that found nothing to consume.
-/

namespace LintDirectives

namespace Expectation

/-- The rule of the diagnostic for an expectation that is not met. -/
def unmetRule : String := "textlint-expect-error"

/-- The message of the diagnostic for an expectation that is not met. -/
def unmetMessage : Option String → String
  | some rule => "Expected error for \"" ++ rule ++ "\" but none found in the expected range."
  | none => "Expected at least one error but none found in the expected range."

/-- The diagnostic for an expectation that is not met, at the start of its window. -/
def unmetDiagnostic (index : LineIndex) (expectation : Expectation) : Diagnostic :=
  let start := index.unitOffset expectation.window.start
  let stop := index.unitOffset expectation.window.stop
  let position := index.position expectation.window.start
  { rule := unmetRule
    message := unmetMessage expectation.rule
    index := some start
    range := some (start, stop)
    line := some position.line
    column := some position.column
    severity := .error }

/-- A diagnostic is one that the expectation asks for. -/
def accepts (index : LineIndex) (expectation : Expectation) (diagnostic : Diagnostic) : Bool :=
  (diagnostic.offset? index).any expectation.covers && expectation.acceptsRule diagnostic.rule

/-- The diagnostics that are left when the first acceptable one is consumed; `none` when
none is acceptable. -/
def consume? (index : LineIndex) (expectation : Expectation) :
    List Diagnostic → Option (List Diagnostic)
  | [] => none
  | diagnostic :: rest =>
    if expectation.accepts index diagnostic then some rest
    else (expectation.consume? index rest).map (diagnostic :: ·)

/-- Lets the expectations consume diagnostics.  The result is what is left, and the
expectations that are not met. -/
def settle (index : LineIndex) (diagnostics : List Diagnostic) :
    List Expectation → List Diagnostic × List Expectation
  | [] => (diagnostics, [])
  | expectation :: rest =>
    match expectation.consume? index diagnostics with
    | some remaining => settle index remaining rest
    | none =>
      let (remaining, unmet) := settle index diagnostics rest
      (remaining, expectation :: unmet)

/-- The diagnostics of a document after its expectations have been checked. -/
def verify (text : String) (expectations : List Expectation) (diagnostics : List Diagnostic) :
    List Diagnostic :=
  let index := LineIndex.ofText text
  let (remaining, unmet) := settle index diagnostics expectations
  remaining ++ unmet.map (unmetDiagnostic index)

end Expectation

end LintDirectives

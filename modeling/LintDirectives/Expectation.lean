import LintDirectives.Span

/-!
# Expected errors

An expect-error directive declares that the content after it is reported.  The
declaration waits until the document has been walked, and is then bound to the
first piece of content that starts at or after its end.  Where no content
follows it is bound to the empty window at the end of the document, in which
nothing can be reported.
-/

namespace LintDirectives

/-- A declaration that waits for the content that follows it. -/
structure PendingExpectation where
  /-- The end of the comment that made the declaration. -/
  commentStop : Nat
  /-- The expected rule; `none` stands for any rule. -/
  rule : Option String
deriving DecidableEq, Repr

/-- A declaration bound to the window in which a report is expected. -/
structure Expectation where
  window : Span
  /-- The expected rule; `none` stands for any rule. -/
  rule : Option String
deriving DecidableEq, Repr

namespace PendingExpectation

/-- The declarations of one directive whose comment ends at `commentStop`: one for each
of `rules`, or one for any rule. -/
def ofDirective (commentStop : Nat) (rules : List String) : List PendingExpectation :=
  if rules.isEmpty then [⟨commentStop, none⟩] else rules.map fun rule => ⟨commentStop, some rule⟩

/-- Binds a declaration to one of `targets`, in a document that ends at `documentStop`. -/
def bind (targets : List Span) (documentStop : Nat) (pending : PendingExpectation) : Expectation :=
  ⟨(targets.find? (pending.commentStop ≤ ·.start)).getD (.empty documentStop), pending.rule⟩

end PendingExpectation

namespace Expectation

/-- A report at byte `offset` falls into the window. -/
def covers (expectation : Expectation) (offset : Nat) : Bool :=
  expectation.window.contains offset

/-- A report of `rule` is of the expected kind. -/
def acceptsRule (expectation : Expectation) (rule : String) : Bool :=
  expectation.rule.all (· = rule)

end Expectation

end LintDirectives

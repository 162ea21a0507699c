import LintDirectives.Expectation.Verification
import LintDirectives.Failure
import LintDirectives.Inspection
import LintDirectives.Report
import LintDirectives.Suppression.Apply

/-!
# Sessions

A session applies the directives of documents to their diagnostics.  It keeps the
configuration, and a store in which the expectations of a document wait between the
walk over the document and the check of its diagnostics.

* `processWith` works on one document with a given reader, `tryProcess` with the
  reader for its path, and `process` keeps the diagnostics when the document
  cannot be read.
* `adjust` does that for the file of a report, `adjustAll` for several.
-/

namespace LintDirectives

/-- The state between two documents. -/
structure Session where
  config : Config := .default
  store : Expectation.Store := .empty

namespace Session

/-- Walks over a document.  What was found is in the result, expectations are stored. -/
def inspect (session : Session) (document : Document) (root : Node) : Inspection × Session :=
  let inspection := LintDirectives.inspect session.config document session.store root
  (inspection, { session with store := inspection.store })

/-- Stores expectations for a document. -/
def insert (session : Session) (document : Document) (expectations : List Expectation) : Session :=
  { session with store := session.store.insert document.key expectations }

/-- Takes the expectations of a document out of the store. -/
def take (session : Session) (document : Document) : List Expectation × Session :=
  let (expectations, store) := session.store.take document.key
  (expectations, { session with store := store })

/-- Checks the expectations of a document against its diagnostics.  They are checked once: the
store forgets them. -/
def verify (session : Session) (document : Document) (diagnostics : List Diagnostic) :
    List Diagnostic × Session :=
  let (expectations, session) := session.take document
  (Expectation.verify document.text expectations diagnostics, session)

/-- Applies the directives of a document whose tree is `root`. -/
def applyTree (session : Session) (document : Document) (root : Node)
    (diagnostics : List Diagnostic) : List Diagnostic × Session :=
  let (inspection, session) := session.inspect document root
  let kept := SuppressedRange.apply inspection.ranges (.ofText document.text) diagnostics
  session.verify document kept

/-- Applies the directives of a document that `parse` reads. -/
def processWith (session : Session) (parse : Parser) (document : Document)
    (diagnostics : List Diagnostic) : Except ParseFault (List Diagnostic × Session) :=
  match parse document.text with
  | .error fault => .error fault
  | .ok root => .ok (session.applyTree document root diagnostics)

/-- Applies the directives of a document; its path says how to read it. -/
def tryProcess (session : Session) (document : Document) (diagnostics : List Diagnostic) :
    Except ParseFault (List Diagnostic × Session) :=
  session.processWith (Format.ofPath document.path).parse document diagnostics

/-- Applies the directives of a document, or keeps the diagnostics when it cannot be read. -/
def process (session : Session) (document : Document) (diagnostics : List Diagnostic) :
    List Diagnostic × Session :=
  match session.tryProcess document diagnostics with
  | .error _ => (diagnostics, session)
  | .ok result => result

/-! ## Reports -/

/-- Applies the directives of the file of a report to its messages.  A file that cannot be
read keeps its messages. -/
def adjust (session : Session) (report : Report) (contents : Except Unreadable String) :
    Report × Session :=
  match contents with
  | .error _ => (report, session)
  | .ok text =>
    let (messages, session) := session.process ⟨some ⟨report.filePath⟩, text⟩ report.messages
    ({ report with messages := messages }, session)

/-- Adjusts several reports, one after the other.  The order matters for reports about one file:
over a store that they share at the same time, the check of one may take what the walks of both
have stored, and the other one is then not checked. -/
def adjustAll (session : Session) :
    List (Report × Except Unreadable String) → List Report × Session
  | [] => ([], session)
  | (report, contents) :: rest =>
    let (adjusted, session) := session.adjust report contents
    let (others, session) := session.adjustAll rest
    (adjusted :: others, session)

end Session

end LintDirectives

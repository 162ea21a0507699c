import LintDirectives.Proofs.Session.Phases

/-!
# Calls of a session

A session is called with one document after the other.  While it works on a
document the expectations of the document are in the store, but they are taken
out again before the call answers, so nothing is carried from one call to the
next.

There are three groups.

* The calls.  `Call` is a document and the way in which a session is asked to
  work on it; `perform` answers one call and `performAll` several.
* One call.  `perform_eq` brings the kinds of calls together, and
  `perform_of_ok` and `perform_of_error` are the two things that a call can
  do.  `perform_eq_answer` says what it answers when nothing is stored, and
  `Call.answer` mentions the path only to read the text.
* The result.  `performAll_remembers_nothing` puts them together.
-/

namespace LintDirectives.Session

open Expectation Inspection

/-! ## The calls -/

/-- How a session is asked to work on a document. -/
inductive Mode where
  /-- Read it as its path says, and keep its diagnostics when it cannot be read. -/
  | process
  /-- Read it as its path says. -/
  | tryProcess
  /-- Read it with a given reader. -/
  | processWith (parse : Parser)

/-- A document that is given to a session with its diagnostics. -/
structure Call where
  mode : Mode
  document : Document
  diagnostics : List Diagnostic

namespace Call

/-- The reader of the document. -/
def parser (call : Call) : Parser :=
  match call.mode with
  | .process => (Format.ofPath call.document.path).parse
  | .tryProcess => (Format.ofPath call.document.path).parse
  | .processWith parse => parse

/-- The same call for the same text at another path. -/
def atPath (call : Call) (path : Option FilePath) : Call :=
  { call with document := { call.document with path := path } }

/-- The answer for a document that cannot be read. -/
def refusal (call : Call) (fault : ParseFault) : Except ParseFault (List Diagnostic) :=
  match call.mode with
  | .process => .ok call.diagnostics
  | .tryProcess => .error fault
  | .processWith _ => .error fault

end Call

/-- An outcome as an answer and the session after it.  A failure hands on no session: the next
call finds the session as it was. -/
def outcome (session : Session) :
    Except ParseFault (List Diagnostic × Session) → Except ParseFault (List Diagnostic) × Session
  | .error fault => (.error fault, session)
  | .ok (left, after) => (.ok left, after)

/-- Answers a call. -/
def perform (session : Session) (call : Call) : Except ParseFault (List Diagnostic) × Session :=
  match call.mode with
  | .process => session.outcome (.ok (session.process call.document call.diagnostics))
  | .tryProcess => session.outcome (session.tryProcess call.document call.diagnostics)
  | .processWith parse =>
    session.outcome (session.processWith parse call.document call.diagnostics)

/-- Answers several calls, one after the other.  Beside each answer stands the session after
the call. -/
def performAll (session : Session) :
    List Call → List (Except ParseFault (List Diagnostic) × Session)
  | [] => []
  | call :: calls =>
    session.perform call :: (session.perform call).2.performAll calls

/-! ## One call -/

section OneCall

variable {session : Session} {call : Call}

/-- The three kinds of calls work alike, with the reader of the call; they differ in what they
answer when it fails. -/
theorem perform_eq :
    session.perform call =
      match session.processWith call.parser call.document call.diagnostics with
      | .error fault => (call.refusal fault, session)
      | .ok (left, after) => (.ok left, after) := by
  obtain ⟨mode, document, diagnostics⟩ := call
  cases mode with
  | process =>
    rw [perform, process, tryProcess]
    simp only [Call.parser, Call.refusal]
    cases session.processWith (Format.ofPath document.path).parse document diagnostics <;> rfl
  | tryProcess =>
    rw [perform, tryProcess]
    simp only [Call.parser, Call.refusal]
    cases session.processWith (Format.ofPath document.path).parse document diagnostics <;> rfl
  | processWith parse =>
    rw [perform]
    simp only [Call.parser, Call.refusal]
    cases session.processWith parse document diagnostics <;> rfl

/-- A call whose document can be read applies its directives. -/
theorem perform_of_ok {root : Node} (h : call.parser call.document.text = .ok root) :
    session.perform call =
      session.outcome (.ok (session.applyTree call.document root call.diagnostics)) := by
  rw [perform_eq, Session.processWith, h]
  rfl

/-- A call whose document cannot be read leaves the session as it is. -/
theorem perform_of_error {fault : ParseFault}
    (h : call.parser call.document.text = .error fault) :
    session.perform call = (call.refusal fault, session) := by
  rw [perform_eq, Session.processWith, h]

end OneCall

/-- The diagnostics of a text when its directives have been applied and nothing else is
known. -/
def applied (config : Config) (text : String) (root : Node) (diagnostics : List Diagnostic) :
    List Diagnostic :=
  Expectation.verify text ((entryOf? config text root).getD [])
    (SuppressedRange.apply (reportsOf config text root) (.ofText text) diagnostics)

/-- Where nothing is stored, nothing is stored afterwards. -/
theorem applyTree_of_empty (config : Config) (document : Document) (root : Node)
    (diagnostics : List Diagnostic) :
    ({ config := config } : Session).applyTree document root diagnostics =
      (applied config document.text root diagnostics, { config := config }) := by
  let fresh : Session := { config := config }
  have hphases : fresh.applyTree document root diagnostics =
      (fresh.inspect document root).2.verify document
        (SuppressedRange.apply (fresh.inspect document root).1.ranges (.ofText document.text)
          diagnostics) := rfl
  have hranges : (fresh.inspect document root).1.ranges =
      reportsOf config document.text root := ranges_inspect config document .empty root
  rw [hphases, hranges, verify_inspect_of_empty, applied]

/-- The answer to a call when nothing is stored. -/
def Call.answer (config : Config) (call : Call) : Except ParseFault (List Diagnostic) :=
  match call.parser call.document.text with
  | .error fault => call.refusal fault
  | .ok root => .ok (applied config call.document.text root call.diagnostics)

theorem perform_eq_answer (config : Config) (call : Call) :
    ({ config := config } : Session).perform call =
      (call.answer config, { config := config }) := by
  cases h : call.parser call.document.text with
  | error fault => rw [perform_of_error h, Call.answer, h]
  | ok root => rw [perform_of_ok h, applyTree_of_empty, outcome, Call.answer, h]

theorem performAll_eq_map (config : Config) (calls : List Call) :
    ({ config := config } : Session).performAll calls =
      calls.map fun call => (call.answer config, { config := config }) := by
  induction calls with
  | nil => rfl
  | cons call calls ih => rw [performAll, perform_eq_answer, ih, List.map_cons]

/-- The answer depends on the path as far as the reader does. -/
theorem answer_atPath {config : Config} {call : Call} {path : Option FilePath}
    (h : (call.atPath path).parser = call.parser) :
    (call.atPath path).answer config = call.answer config := by
  rw [Call.answer, Call.answer, h]
  rfl

/-! ## The result -/

/-- A session that starts with nothing stored has nothing stored after any call, and answers
each call as if it were the first.  Of the path only the reader matters that it selects.  A
call whose document cannot be read leaves any session as it is, and answers with the
diagnostics or the fault. -/
theorem performAll_remembers_nothing (config : Config) :
    let fresh : Session := { config := config, store := .empty }
    (∀ calls, fresh.performAll calls =
        calls.map fun call => ((fresh.perform call).1, fresh)) ∧
      (∀ call path, (call.atPath path).parser = call.parser →
        (fresh.perform (call.atPath path)).1 = (fresh.perform call).1) ∧
      ∀ (session : Session) (call : Call) (fault : ParseFault),
        call.parser call.document.text = .error fault →
        session.perform call = (call.refusal fault, session) := by
  intro fresh
  refine ⟨fun calls => ?_, fun call path h => ?_, fun session call fault h => perform_of_error h⟩
  · simp only [fresh, performAll_eq_map, perform_eq_answer]
  · simp only [fresh, perform_eq_answer, answer_atPath h]

/-- A reader that reads nothing. -/
def unreading : Parser := fun _ => .error (.invalidSource "unsupported")

theorem performAll_remembers_no_failure :
    let fresh : Session := {}
    let marked : Call := ⟨.process, markedDocument, [{ rule := "ruleA", index := some 33 }]⟩
    let failing : Call := ⟨.processWith unreading, markedDocument, []⟩
    let elsewhere := marked.atPath (some ⟨"notes/a.md"⟩)
    elsewhere.parser = marked.parser ∧
      failing.parser failing.document.text = .error (.invalidSource "unsupported") ∧
      fresh.performAll [marked, failing, elsewhere] =
        [marked, failing, elsewhere].map (fun call => ((fresh.perform call).1, fresh)) ∧
      (fresh.perform elsewhere).1 = (fresh.perform marked).1 ∧
      fresh.perform failing = (.error (.invalidSource "unsupported"), fresh) := by
  intro fresh marked failing elsewhere
  have hformat : Format.ofPath (some ⟨"notes/a.md"⟩) = Format.ofPath none := by decide +kernel
  have hparser : elsewhere.parser = marked.parser := congrArg Format.parse hformat
  have hfailing : failing.parser failing.document.text =
      .error (.invalidSource "unsupported") := rfl
  obtain ⟨hall, hpath, hfault⟩ := performAll_remembers_nothing .default
  exact ⟨hparser, hfailing, hall _, hpath marked _ hparser, hfault fresh failing _ hfailing⟩

end LintDirectives.Session

import LintDirectives.Expectation
import LintDirectives.FilePath

/-!
# The expectation store

Between the walk over a document and the check of its diagnostics the expectations
of the document wait in a store.  A document is identified by its path, compared by
components, and its exact text.  An insertion replaces what was stored for the
document, and taking the expectations removes them.
-/

namespace LintDirectives

namespace Expectation

/-- What identifies a document. -/
structure DocumentKey where
  /-- The components of its path, if it has one. -/
  path : Option (List PathComponent)
  text : String
deriving DecidableEq, Repr

/-- The key of a document. -/
def DocumentKey.ofDocument (path : Option FilePath) (text : String) : DocumentKey :=
  ⟨path.map FilePath.components, text⟩

/-- The expectations of several documents. -/
structure Store where
  entries : List (DocumentKey × List Expectation) := []
deriving DecidableEq, Repr

namespace Store

/-- No document has expectations. -/
def empty : Store := {}

/-- Replaces the value of a key, or adds it at the end. -/
def put (key : DocumentKey) (expectations : List Expectation) :
    List (DocumentKey × List Expectation) → List (DocumentKey × List Expectation)
  | [] => [(key, expectations)]
  | entry :: entries =>
    if entry.1 = key then (key, expectations) :: entries else entry :: put key expectations entries

/-- Stores the expectations of a document. -/
def insert (store : Store) (key : DocumentKey) (expectations : List Expectation) : Store :=
  ⟨put key expectations store.entries⟩

/-- The stored expectations of a document. -/
def get (store : Store) (key : DocumentKey) : List Expectation :=
  (store.entries.lookup key).getD []

/-- Forgets the expectations of a document. -/
def erase (store : Store) (key : DocumentKey) : Store :=
  ⟨store.entries.filter (·.1 ≠ key)⟩

/-- Takes the expectations of a document out of the store. -/
def take (store : Store) (key : DocumentKey) : List Expectation × Store :=
  (store.get key, store.erase key)

/-- The number of documents with an entry. -/
def size (store : Store) : Nat :=
  store.entries.length

/-- No document has an entry. -/
def isEmpty (store : Store) : Bool :=
  store.entries.isEmpty

end Store

end Expectation

end LintDirectives

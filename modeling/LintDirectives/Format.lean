import LintDirectives.FilePath
import LintDirectives.Markdown.Document
import LintDirectives.PlainText

/-!
# Document formats

A format is a way to read a document.  The extension of a file selects one: Markdown
for its own extensions, plain text for everything else.

* `Format.select` chooses a format.
* `Format.parse` reads a document, unless the document is too large.
-/

namespace LintDirectives

/-- Why a document could not be read. -/
inductive ParseFault where
  | invalidSource (reason : String)
  /-- The document has `bytes` bytes, more than can be addressed. -/
  | tooLarge (bytes : Nat)
deriving DecidableEq, Repr

/-- The wording of a fault. -/
def ParseFault.message : ParseFault → String
  | invalidSource reason => "Invalid source: " ++ reason
  | tooLarge bytes => "Source too large: " ++ toString bytes ++ " bytes"

/-- A reader of documents. -/
abbrev Parser := String → Except ParseFault Node

/-- A document format. -/
inductive Format where
  | markdown
  | plain
deriving DecidableEq, Repr

namespace Format

/-- The name of a format. -/
def name : Format → String
  | markdown => "markdown"
  | plain => "text"

/-- The extensions of the files in a format. -/
def extensions : Format → List String
  | markdown => ["md", "markdown", "mdown", "mkdn", "mkd"]
  | plain => ["txt", "text"]

/-- The extension belongs to the format; case does not matter for the letters of ASCII. -/
def accepts (format : Format) (extension : String) : Bool :=
  format.extensions.any fun known =>
    known.toList = extension.toList.map Char.toLower

/-- The format for an extension. -/
def select (extension : String) : Format :=
  if markdown.accepts extension then markdown else plain

/-- The format for a document: Markdown for one without a path. -/
def ofPath : Option FilePath → Format
  | none => markdown
  | some path => select (String.ofList (path.extension?.getD []))

/-- The last byte that can be addressed. -/
def lastByte : Nat :=
  Nat.pow 2 32 - 1

/-- Reads a document. -/
def parse (format : Format) : Parser := fun text =>
  if lastByte < text.utf8ByteSize then .error (.tooLarge text.utf8ByteSize)
  else
    .ok <| match format with
      | markdown => Markdown.parse text
      | plain => PlainText.parse text

end Format

end LintDirectives

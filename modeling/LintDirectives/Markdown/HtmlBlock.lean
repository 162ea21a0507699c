import LintDirectives.Markdown.Glyph
import LintDirectives.Markdown.Tag

/-!
# HTML blocks

A line that starts with markup may start an HTML block.  The kind of markup
decides where the block ends: at a line with an end mark, or before a blank line.

* `HtmlBlock.opening?` is the kind of the block that a line starts.
* `HtmlBlock.startsMarkup` says that a line could start a block if it went on.
* `HtmlBlock.closes` says that a line ends a block.
-/

namespace LintDirectives.Markdown

open Text

/-- The kinds of HTML blocks. -/
inductive HtmlBlock where
  /-- A script, a style sheet or other raw text; ends with a closing tag of that sort. -/
  | raw
  | comment
  | instruction
  | declaration
  | cdata
  /-- A tag of a block of the page; ends before a blank line. -/
  | block
  /-- A tag alone on its line; ends before a blank line. -/
  | tag
deriving DecidableEq, Repr

namespace HtmlBlock

/-- The tags that hold raw text. -/
def rawNames : List String :=
  ["pre", "script", "style", "textarea"]

/-- The tags of blocks. -/
def blockNames : List String :=
  ["address", "article", "aside", "base", "basefont", "blockquote", "body", "caption",
   "center", "col", "colgroup", "dd", "details", "dialog", "dir", "div", "dl", "dt",
   "fieldset", "figcaption", "figure", "footer", "form", "frame", "frameset", "h1", "h2",
   "h3", "h4", "h5", "h6", "head", "header", "hr", "html", "iframe", "legend", "li",
   "link", "main", "menu", "menuitem", "nav", "noframes", "ol", "optgroup", "option", "p",
   "param", "search", "section", "summary", "table", "tbody", "td", "tfoot", "th", "thead",
   "title", "tr", "track", "ul"]

/-- The block ends before a blank line. -/
def endsAtBlank : HtmlBlock → Bool
  | block => true
  | tag => true
  | _ => false

/-- A name of a tag in small letters. -/
def lowered (name : List Char) : String :=
  String.ofList (name.map Char.toLower)

/-- The name of a tag ends before `rest`. -/
def nameEnds : List Char → Bool
  | [] => true
  | c :: _ => isSpace c || c == '>' || c == '/'

/-- The kind of block that a tag starts when its name says so. -/
def named? (isClosing : Bool) (name rest : List Char) : Option HtmlBlock :=
  let isSlash := rest.head? == some '/'
  if !nameEnds rest then none
  else if !isClosing && !isSlash && rawNames.contains (lowered name) then some raw
  else if blockNames.contains (lowered name) then
    if isSlash && rest.tail.head? != some '>' then none else some block
  else none

/-- The name starts a block whose tag is cut short by a slash. -/
def isBroken (name rest : List Char) : Bool :=
  rest.head? == some '/' && rest.tail.head? != some '>' && blockNames.contains (lowered name)

/-- The mark of a data section after `<!`. -/
def dataMark : List Char :=
  ['[', 'C', 'D', 'A', 'T', 'A', '[']

/-- The kind of block that starts after `<`.  `alone` says that a tag alone on its line
counts. -/
def afterMark? (alone : Bool) (text : List Char) : Option HtmlBlock :=
  match text with
  | '!' :: '-' :: '-' :: _ => some comment
  | '!' :: rest =>
    if dataMark.isPrefixOf rest then some cdata
    else if rest.head?.any Char.isAlpha then some declaration
    else none
  | '?' :: _ => some instruction
  | _ =>
    let isClosing := text.head? == some '/'
    let inside := if isClosing then text.drop 1 else text
    let (name, rest) := inside.span Tag.isNameChar
    if !name.head?.any Char.isAlpha then none
    else match named? isClosing name rest with
      | some kind => some kind
      | none =>
        if !alone || isBroken name rest then none
        else match Tag.after? .block text with
          | some after => if after.all isSpace then some tag else none
          | none => none

/-- A tag starts after `<`. -/
def startsTag : List Char → Bool
  | '/' :: _ => true
  | c :: _ => c.isAlpha
  | [] => false

/-- The text after `<` with the slash that takes a tag for a closing one. -/
def asClosing (text : List Char) : List Char :=
  if text.head?.any Char.isAlpha then '/' :: text else text

/-- The kind of block that a line starts, its indentation left out.  `closing` says that a tag
counts as a closing one. -/
def opening? (alone closing : Bool) : List Char → Option HtmlBlock
  | '<' :: text => afterMark? alone (if closing then asClosing text else text)
  | _ => none

/-- A tag that ends with the text after `<` could still become one that starts a block. -/
def isTagStart (text : List Char) : Bool :=
  let inside := if text.head? == some '/' then text.drop 1 else text
  let (name, rest) := inside.span Tag.isNameChar
  if inside.isEmpty then true
  else if !name.head?.any Char.isAlpha then false
  else if rest.head? == some '/' && blockNames.contains (lowered name) then rest.length == 1
  else Tag.isStart .block .start text

/-- The line starts no block yet, but could if it went on after its last character. -/
def startsMarkup (closing : Bool) : List Char → Bool
  | ['<'] => true
  | '<' :: '!' :: rest => rest == ['-'] || rest.isPrefixOf dataMark
  | '<' :: text => isTagStart (if closing then asClosing text else text)
  | _ => false

/-- The line holds the closing tag of raw text. -/
def holdsRawEnd : List Char → Bool
  | [] => false
  | c :: cs =>
    (c == '<' && cs.head? == some '/' &&
      let (name, rest) := cs.tail.span Char.isAlpha
      rest.head? == some '>' && rawNames.contains (lowered name)) || holdsRawEnd cs

/-- The line holds the end of a data section.  Two brackets that no `>` follows are passed
over together. -/
def holdsDataEnd : List Char → Bool
  | ']' :: ']' :: '>' :: _ => true
  | ']' :: ']' :: rest => holdsDataEnd rest
  | _ :: rest => holdsDataEnd rest
  | [] => false

/-- A line of the block holds the mark that ends it. -/
def closes (kind : HtmlBlock) (line : List Char) : Bool :=
  match kind with
  | raw => holdsRawEnd line
  | comment => (cut? ['-', '-', '>'] line).isSome
  | instruction => (cut? ['?', '>'] line).isSome
  | declaration => line.contains '>'
  | cdata => holdsDataEnd line
  | block => false
  | tag => false

/-- The first line of the block, its indentation left out, also ends it. -/
def closesAtOnce (kind : HtmlBlock) (line : List Char) : Bool :=
  match kind with
  | comment => kind.closes (line.drop 2)
  | instruction => kind.closes (line.drop 1)
  | cdata => kind.closes (line.drop 9)
  | _ => kind.closes line

end HtmlBlock

end LintDirectives.Markdown

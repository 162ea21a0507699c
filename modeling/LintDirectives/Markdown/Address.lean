import LintDirectives.Markdown.Glyph
import LintDirectives.Text.Blank
import LintDirectives.Text.Punctuation
import LintDirectives.Text.Search

/-!
# Addresses

Addresses become links without brackets.  An address between angle brackets is
taken as it stands.  A bare address starts with `www.` or a protocol and ends before
the punctuation after it; a bare mail address is found around its `@`.

Each reader gives what follows the address, or nothing when there is none.
-/

namespace LintDirectives.Markdown.Address

open Text

/-! ## Between angle brackets -/

/-- The longest name of a scheme. -/
def schemeLimit : Nat :=
  32

/-- The longest part of a host between two dots. -/
def hostPartLimit : Nat :=
  63

/-- The character may follow the first one in the name of a scheme. -/
def isSchemeChar (c : Char) : Bool :=
  c.isAlphanum || c == '+' || c == '-' || c == '.'

/-- What follows the closing angle bracket of an address whose scheme was read. -/
def afterScheme? : List Char → Option (List Char)
  | [] => none
  | c :: cs =>
    if c = '>' then some cs
    else if c.toNat < 0x21 ∨ c = '<' ∨ c.toNat = 0x7F then none
    else afterScheme? cs

/-- What follows an address with a scheme. -/
def afterUri? (text : List Char) : Option (List Char) :=
  let scheme := text.takeWhile isSchemeChar
  match text.drop scheme.length with
  | ':' :: rest =>
    if scheme.head?.any Char.isAlpha ∧ 2 ≤ scheme.length ∧ scheme.length ≤ schemeLimit then
      afterScheme? rest
    else none
  | _ => none

/-- The character may stand before the `@`. -/
def isMailboxChar (c : Char) : Bool :=
  ('#' ≤ c && c ≤ '\x27') || c == '*' || c == '+' || ('-' ≤ c && c ≤ '9') || c == '=' ||
    c == '?' || ('A' ≤ c && c ≤ 'Z') || ('^' ≤ c && c ≤ '~')

/-- The character may stand between the dots of a host. -/
def isHostChar (c : Char) : Bool :=
  c.isAlphanum || c == '-'

/-- The text may stand between the dots of a host. -/
def isHostPart (part : List Char) : Bool :=
  part.length ≤ hostPartLimit && part.head?.any Char.isAlphanum &&
    part.getLast?.any Char.isAlphanum && part.all isHostChar

/-- What follows a mail address. -/
def afterMail? (text : List Char) : Option (List Char) :=
  let mailbox := text.takeWhile isMailboxChar
  match text.drop mailbox.length with
  | '@' :: rest =>
    let host := rest.takeWhile fun c => isHostChar c || c == '.'
    match rest.drop host.length with
    | '>' :: after =>
      if mailbox.isEmpty then none
      else if (pieces '.' host).all isHostPart then some after
      else none
    | _ => none
  | _ => none

/-- What follows an address whose opening angle bracket was read. -/
def afterAngle? (text : List Char) : Option (List Char) :=
  (afterUri? text).orElse fun _ => afterMail? text

/-! ## Bare -/

/-- The character at the end of an address does not belong to it. -/
def isTrailing (c : Char) : Bool :=
  c == '!' || c == '"' || c == '\x27' || c == ')' || c == '*' || c == ',' || c == '.' ||
    c == ':' || c == ';' || c == '?' || c == '_' || c == '~'

/-- Nothing more of an address comes: only trailing characters, character references and
brackets up to a blank, a `<` or the end.  `beyond` is the character after the text, and
`reference` is there after an ampersand and says whether a letter follows it. -/
def isTrail (beyond : Option Char) (reference : Option Bool) : List Char → Bool
  | [] => reference.isNone && beyond.all isBlank
  | c :: cs =>
    match reference with
    | some named =>
      if c = ';' then named && isTrail beyond none cs
      else c.isAlpha && isTrail beyond (some true) cs
    | none =>
      if isTrailing c then isTrail beyond none cs
      else if c = '&' then isTrail beyond (some false) cs
      else if c = ']' then
        cs.head?.all (fun d => d == '(' || d == '[' || isBlank d) || isTrail beyond none cs
      else c == '<' || isBlank c

/-- What follows a host.  `seen` says that the host has more than signs, `last` and `before`
that there is an underscore in its last part and in the one before. -/
def afterHost? (beyond : Option Char) (seen last before : Bool) : List Char → Option (List Char)
  | [] => if seen && !last && !before then some [] else none
  | c :: cs =>
    let stops :=
      if c == '.' || c == '_' then isTrail beyond none (c :: cs)
      else isBlank c || (c != '-' && isPunctuation c)
    if stops then if seen && !last && !before then some (c :: cs) else none
    else if c = '_' then afterHost? beyond seen true before cs
    else if c = '.' then afterHost? beyond seen false last cs
    else if c = '-' then afterHost? beyond seen last before cs
    else afterHost? beyond true last before cs

/-- The character may start the trail of an address. -/
def startsTrail (c : Char) : Bool :=
  isTrailing c || c == '&' || c == '<' || c == ']'

/-- What follows a path with `opened` and `closed` parentheses before it. -/
def afterPath (beyond : Option Char) (opened closed : Nat) : List Char → List Char
  | [] => []
  | c :: cs =>
    if c = '(' then afterPath beyond (opened + 1) closed cs
    else if c = ')' ∧ closed < opened then afterPath beyond opened (closed + 1) cs
    else if startsTrail c then
      if isTrail beyond none (c :: cs) then c :: cs
      else afterPath beyond opened (if c = ')' then closed + 1 else closed) cs
    else if isBlank c then c :: cs
    else afterPath beyond opened closed cs

/-- What follows a host and its path. -/
def afterPlace? (beyond : Option Char) (text : List Char) : Option (List Char) :=
  (afterHost? beyond false false false text).map (afterPath beyond 0 0)

/-- What follows a word in small letters, in any case. -/
def afterWord? : List Char → List Char → Option (List Char)
  | [], text => some text
  | _ :: _, [] => none
  | w :: ws, c :: cs => if c.toLower = w then afterWord? ws cs else none

/-- An address without a protocol may follow the character. -/
def maySee (previous : Option Char) : Bool :=
  previous.all fun c =>
    c == '(' || c == '*' || c == '_' || c == '[' || c == ']' || c == '~' || c == ' ' ||
      c == '\t' || c == '\n'

/-- What follows an address that starts with `www.`. -/
def afterWww? (beyond previous : Option Char) (text : List Char) : Option (List Char) :=
  match afterWord? ['w', 'w', 'w', '.'] text with
  | none => none
  | some rest => if rest.isEmpty || !maySee previous then none else afterPlace? beyond text

/-- What follows the protocol that an address starts with. -/
def afterProtocol? (text : List Char) : Option (List Char) :=
  (afterWord? ['h', 't', 't', 'p', 's', ':', '/', '/'] text).orElse
    fun _ => afterWord? ['h', 't', 't', 'p', ':', '/', '/'] text

/-- What follows an address that starts with a protocol. -/
def afterUrl? (beyond previous : Option Char) (text : List Char) : Option (List Char) :=
  if previous.any Char.isAlpha then none else (afterProtocol? text).bind (afterPlace? beyond)

/-- A bare address may start with these two characters. -/
def mayStart (first second : Char) : Bool :=
  (first.toLower == 'w' && second.toLower == 'w') || (first.toLower == 'h' && second.toLower == 't')

/-- What follows a bare address after the character `previous`. -/
def afterBare? (beyond previous : Option Char) (text : List Char) : Option (List Char) :=
  match text with
  | [] => none
  | c :: _ =>
    if c.toLower = 'w' then afterWww? beyond previous text
    else if c.toLower = 'h' then afterUrl? beyond previous text
    else none

/-! ## Bare mail addresses -/

/-- The character may stand before the `@` of a bare mail address. -/
def isLocalChar (c : Char) : Bool :=
  c.isAlphanum || c == '+' || c == '-' || c == '.' || c == '_'

/-- The number of characters of a host after an `@`, and whether there is a dot. -/
def hostLength (slashes : Bool) : List Char → Nat × Bool
  | [] => (0, false)
  | c :: cs =>
    if c.isAlphanum || c == '-' || c == '_' || (c == '/' && slashes) then
      let (length, dotted) := hostLength slashes cs
      (length + 1, dotted)
    else if c = '.' ∧ cs.head?.any Char.isAlphanum then ((hostLength slashes cs).1 + 1, true)
    else (0, false)

/-- The number of characters of a whole host after an `@`: it has a dot and ends in a
letter. -/
def wholeHostLength? (slashes : Bool) (text : List Char) : Option Nat :=
  let (length, dotted) := hostLength slashes text
  if dotted ∧ (text.take length).getLast?.any Char.isAlpha then some length else none

/-- Where a bare mail address starts before its `@`: the number of characters from there, and
whether its protocol allows slashes in the host.  The text is given backwards. -/
def mailStart? (backwards : List Char) : Option (Nat × Bool) :=
  let mailbox := backwards.takeWhile isLocalChar
  let outside := backwards.drop mailbox.length
  if mailbox.isEmpty ∨ outside.head? = some '/' then none
  else match outside with
    | ':' :: more =>
      let name := more.takeWhile Char.isAlphanum
      let protocol := String.ofList (name.reverse.map Char.toLower)
      if protocol = "xmpp" then some (mailbox.length + 1 + name.length, true)
      else if protocol = "mailto" then some (mailbox.length + 1 + name.length, false)
      else some (mailbox.length, false)
    | _ => some (mailbox.length, false)

/-- A piece of text: whether it is a mail address, and its glyphs. -/
abbrev Piece := Bool × List Glyph

/-- The mail addresses in a text and the pieces between them.  The glyphs that were passed
are given backwards. -/
def mails (passed : List Glyph) : List Glyph → List Piece
  | [] => if passed.isEmpty then [] else [(false, passed.reverse)]
  | glyph :: rest =>
    if glyph.char = '@' then
      match mailStart? (Glyph.chars passed) with
      | none => mails (glyph :: passed) rest
      | some (before, slashes) =>
        match wholeHostLength? slashes (Glyph.chars rest) with
        | none => mails (glyph :: passed) rest
        | some after =>
          let outside := passed.drop before
          (if outside.isEmpty then [] else [(false, outside.reverse)]) ++
            (true, (passed.take before).reverse ++ glyph :: rest.take after) ::
              mails [] (rest.drop after)
    else mails (glyph :: passed) rest
termination_by glyphs => glyphs.length
decreasing_by
  all_goals simp only [List.length_cons, List.length_drop]; omega

end LintDirectives.Markdown.Address

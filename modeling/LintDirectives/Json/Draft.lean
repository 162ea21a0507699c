import LintDirectives.Json.Token
import LintDirectives.Json.Value

/-!
# Drafts of JSON values

A text is read as far as it is JSON.  A `Draft` is what has been read: a value
whose lists and records may have been left open, and in which one value may be
missing altogether.  A decoder that goes through a draft from left to right
therefore meets the first fault of the text in its place, after everything that
was fine before it.

* `Reader` is the state between two tokens: the lists and records that are open,
  and what may come next.  `Reader.step` takes one token.
* `Draft.read` reads a whole text and says whether anything follows its value.

A text may nest lists and records 127 deep.
-/

namespace LintDirectives.Json

/-- A value as far as its text could be read. -/
inductive Draft where
  | null
  | bool (value : Bool)
  | number (value : Number)
  | string (value : String)
  /-- The items read; `complete` when the closing bracket was read too. -/
  | list (items : List Draft) (complete : Bool)
  /-- The fields read; `complete` when the closing bracket was read too. -/
  | record (fields : List (String × Draft)) (complete : Bool)
  /-- The text is not JSON where this value should stand. -/
  | broken
deriving Inhabited

/-- A list or record whose closing bracket has not been read, latest parts first. -/
inductive OpenDraft where
  | list (items : List Draft)
  /-- `name` is the name of the field whose value comes next. -/
  | record (fields : List (String × Draft)) (name : Option String)

namespace OpenDraft

/-- Takes up a value that has been read. -/
def add (value : Draft) : OpenDraft → OpenDraft
  | list items => list (value :: items)
  | record fields (some name) => record ((name, value) :: fields) none
  | record fields none => record fields none

/-- The draft of what has been read. -/
def toDraft (complete : Bool) : OpenDraft → Draft
  | list items => .list items.reverse complete
  | record fields none => .record fields.reverse complete
  | record fields (some name) => .record ((name, .broken) :: fields).reverse complete

end OpenDraft

/-- What may come next. -/
inductive Awaited where
  /-- A value. -/
  | value
  /-- A value, or the end of the list just opened. -/
  | firstItem
  /-- The name of a field, or the end of the record just opened. -/
  | firstName
  /-- The name of a field. -/
  | name
  /-- The colon after a name. -/
  | colon
  /-- A comma or a closing bracket. -/
  | separator
deriving DecidableEq, Repr

/-- The state between two tokens. -/
inductive Reader where
  /-- Inside a value; the innermost open list or record comes first. -/
  | reading (outer : List OpenDraft) (awaited : Awaited)
  /-- The value of the text is complete; `followed` when something came after it. -/
  | finished (value : Draft) (followed : Bool)
  /-- The text is not JSON. -/
  | failed (value : Draft)

namespace Reader

/-- The number of lists and records that may be open at once. -/
def depthLimit : Nat := 127

/-- The draft that is left when the text stops being JSON inside `outer`. -/
def abandon : List OpenDraft → Draft
  | [] => .broken
  | open₀ :: outer => outer.foldl (fun value o => (o.add value).toDraft false) (open₀.toDraft false)

/-- The state after a value has been read inside `outer`. -/
def afterValue (value : Draft) : List OpenDraft → Reader
  | [] => finished value false
  | open₀ :: outer => reading (open₀.add value :: outer) .separator

/-- The state after an opening bracket. -/
def push (outer : List OpenDraft) (opened : OpenDraft) (awaited : Awaited) : Reader :=
  if outer.length < depthLimit then reading (opened :: outer) awaited else failed (abandon outer)

/-- The state after a token where a value may stand. -/
def value (outer : List OpenDraft) : Token → Reader
  | .null => afterValue .null outer
  | .bool b => afterValue (.bool b) outer
  | .number n => afterValue (.number n) outer
  | .string s => afterValue (.string s) outer
  | .openList => push outer (.list []) .firstItem
  | .openRecord => push outer (.record [] none) .firstName
  | _ => failed (abandon outer)

/-- The state after a token where the name of a field may stand. -/
def name (outer : List OpenDraft) (token : Token) : Reader :=
  match token, outer with
  | .string s, .record fields none :: rest => reading (.record fields (some s) :: rest) .colon
  | _, _ => failed (abandon outer)

/-- The state after one more token. -/
def step (reader : Reader) (token : Token) : Reader :=
  match reader with
  | failed draft => failed draft
  | finished draft _ => finished draft true
  | reading outer .value => value outer token
  | reading outer .firstItem =>
    match token, outer with
    | .closeList, .list items :: rest => afterValue ((OpenDraft.list items).toDraft true) rest
    | _, _ => value outer token
  | reading outer .firstName =>
    match token, outer with
    | .closeRecord, .record fields none :: rest =>
      afterValue ((OpenDraft.record fields none).toDraft true) rest
    | _, _ => name outer token
  | reading outer .name => name outer token
  | reading outer .colon =>
    match token with
    | .colon => reading outer .value
    | _ => failed (abandon outer)
  | reading outer .separator =>
    match token, outer with
    | .comma, .list _ :: _ => reading outer .value
    | .comma, .record _ _ :: _ => reading outer .name
    | .closeList, .list items :: rest => afterValue ((OpenDraft.list items).toDraft true) rest
    | .closeRecord, .record fields none :: rest =>
      afterValue ((OpenDraft.record fields none).toDraft true) rest
    | _, _ => failed (abandon outer)

/-- Nothing has been read. -/
def start : Reader :=
  reading [] .value

/-- The draft when the text ends, and whether anything follows its value. -/
def result : Reader → Draft × Bool
  | reading outer _ => (abandon outer, false)
  | finished draft followed => (draft, followed)
  | failed draft => (draft, false)

end Reader

namespace Draft

/-- Reads a text.  The second component says that something follows its value. -/
def read (text : String) : Draft × Bool :=
  ((Token.tokens text.toList).foldl Reader.step Reader.start).result

mutual

/-- The value of a draft that was read to its end. -/
def value? : Draft → Option Value
  | null => some .null
  | bool b => some (.bool b)
  | number n => some (.number n)
  | string s => some (.string s)
  | list items complete =>
    if complete then (items? items).map .list else none
  | record fields complete =>
    if complete then (fields? fields).map fun fields => .record (Fields.ofList fields) else none
  | broken => none

/-- The values of all items. -/
def items? : List Draft → Option (List Value)
  | [] => some []
  | item :: items =>
    match value? item with
    | none => none
    | some value => (items? items).map (value :: ·)

/-- The values of all fields. -/
def fields? : List (String × Draft) → Option (List (String × Value))
  | [] => some []
  | (name, draft) :: fields =>
    match value? draft with
    | none => none
    | some value => (fields? fields).map ((name, value) :: ·)

end

/-- The draft was read to its end. -/
def isWhole (draft : Draft) : Bool :=
  draft.value?.isSome

mutual

/-- A value as the draft of its own text. -/
def ofValue : Value → Draft
  | .null => null
  | .bool b => bool b
  | .number n => number n
  | .string s => string s
  | .list items => list (ofItems items) true
  | .record fields => record (ofFields fields) true

/-- The drafts of all items. -/
def ofItems : List Value → List Draft
  | [] => []
  | item :: items => ofValue item :: ofItems items

/-- The drafts of all fields. -/
def ofFields : List (String × Value) → List (String × Draft)
  | [] => []
  | (name, value) :: fields => (name, ofValue value) :: ofFields fields

end

end Draft

/-- Reads the value of a text that is JSON. -/
def Value.read? (text : String) : Option Value :=
  match Draft.read text with
  | (draft, false) => draft.value?
  | (_, true) => none

end LintDirectives.Json

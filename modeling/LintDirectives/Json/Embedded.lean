import LintDirectives.Json.Decode

/-!
# Embedded texts

A value may be given by its text: a record whose first field has a name set aside for
this stands for the value whose text the field holds.  The text may embed further texts,
each shorter than the one around it.

* `Embedded.fields` reads fields of any kind.
-/

namespace LintDirectives.Json.Embedded

/-- The name of the field that holds the text of a value. -/
def fieldName : String :=
  "$serde_json::private::RawValue"

/-- The content of a field that holds the text of a value, when the first field does, and the
number of fields after it. -/
def content? : List (String × Draft) → Option (Draft × Nat)
  | (name, content) :: rest => if name = fieldName then some (content, rest.length) else none
  | [] => none

/-- The value of an embedded text, which is the only field of its record. -/
def only (origin : Origin) (extra : Nat) (complete : Bool) (value : Value) : Except Fault Value :=
  if extra = 0 ∧ complete then .ok value
  else match origin with
    | .text => .error .malformed
    | .value => .error (.tooManyFields (extra + 1))

/-- Reads the text in a field. -/
def text (read : String → Except Fault Value) : Decoder Value
  | .string s => read s
  | draft => .error (.mismatch draft .embedded)

mutual

/-- Reads any value.  `read` reads an embedded text. -/
def value (origin : Origin) (read : String → Except Fault Value) : Decoder Value
  | .null => .ok .null
  | .bool b => .ok (.bool b)
  | .number n => .ok (.number n)
  | .string s => .ok (.string s)
  | .list items complete =>
    match values origin read items with
    | .error fault => .error fault
    | .ok values => if complete then .ok (.list values) else .error .malformed
  | .record fields complete =>
    match content? fields with
    | some (content, extra) => (text read content).bind (only origin extra complete)
    | none =>
      match fieldValues origin read fields with
      | .error fault => .error fault
      | .ok values => if complete then .ok (.record (Fields.ofList values)) else .error .malformed
  | .broken => .error .malformed

/-- Reads all items. -/
def values (origin : Origin) (read : String → Except Fault Value) :
    List Draft → Except Fault (List Value)
  | [] => .ok []
  | item :: items =>
    match value origin read item with
    | .error fault => .error fault
    | .ok first => (values origin read items).map (first :: ·)

/-- Reads all fields. -/
def fieldValues (origin : Origin) (read : String → Except Fault Value) :
    List (String × Draft) → Except Fault (List (String × Value))
  | [] => .ok []
  | (name, draft) :: fields =>
    match value origin read draft with
    | .error fault => .error fault
    | .ok first => (fieldValues origin read fields).map ((name, first) :: ·)

end

/-- Reads a text that embeds texts at most `depth` deep. -/
def ofText : Nat → String → Except Fault Value
  | 0, _ => .error .malformed
  | depth + 1, source => Decode.run (value .text (ofText depth)) source

/-- Reads the values of fields.  Of fields with one name the last one is kept.  A text of some
length embeds texts less deep than that. -/
def fields (drafts : List (String × Draft)) : Except Fault Fields :=
  (fieldValues .value (fun source => ofText source.length source) drafts).map Fields.ofList

end LintDirectives.Json.Embedded

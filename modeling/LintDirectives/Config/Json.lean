import LintDirectives.Config
import LintDirectives.Json.Decode

/-!
# Configurations as JSON

A configuration is a record whose fields may all be missing, or a list of the
field values in order, of which the last may be missing.  A field that is not
known, or that stands twice, is a fault.
-/

namespace LintDirectives.Config

open Json

/-- The names of the policies. -/
def policies : List (String × BareEnable) :=
  [("trailing-run", .trailingRun), ("all", .all)]

/-- The names of the fields, in order. -/
def fieldNames : List String :=
  ["enablingComment", "disablingComment", "expectingComment", "bareEnable"]

/-- The fields met so far. -/
structure Draft where
  enabling : Option String := none
  disabling : Option String := none
  expecting : Option String := none
  bareEnable : Option BareEnable := none

namespace Draft

/-- The configuration, with defaults for the fields that were not met. -/
def finish (draft : Draft) : Config where
  enabling := draft.enabling.getD default.enabling
  disabling := draft.disabling.getD default.disabling
  expecting := draft.expecting.getD default.expecting
  bareEnable := draft.bareEnable.getD default.bareEnable

/-- Takes up one field. -/
def field (draft : Draft) (name : String) (content : Json.Draft) : Except Fault Draft :=
  if name = "enablingComment" then
    if draft.enabling.isSome then .error (.duplicateField name)
    else (Decode.string content).map fun s => { draft with enabling := some s }
  else if name = "disablingComment" then
    if draft.disabling.isSome then .error (.duplicateField name)
    else (Decode.string content).map fun s => { draft with disabling := some s }
  else if name = "expectingComment" then
    if draft.expecting.isSome then .error (.duplicateField name)
    else (Decode.string content).map fun s => { draft with expecting := some s }
  else if name = "bareEnable" then
    if draft.bareEnable.isSome then .error (.duplicateField name)
    else (Decode.variant .text policies content).map fun p => { draft with bareEnable := some p }
  else .error (.unknownField name fieldNames)

/-- Takes up all fields. -/
def fields (draft : Draft) : List (String × Json.Draft) → Except Fault Draft
  | [] => .ok draft
  | (name, content) :: rest =>
    match draft.field name content with
    | .error fault => .error fault
    | .ok draft => draft.fields rest

end Draft

/-- Reads a configuration. -/
def decode : Decoder Config
  | .record fields complete =>
    match Draft.fields {} fields with
    | .error fault => .error fault
    | .ok draft => if complete then .ok draft.finish else .error .malformed
  | .list items complete =>
    match Draft.fields {} (fieldNames.zip items) with
    | .error fault => .error fault
    | .ok draft =>
      if complete && items.length ≤ fieldNames.length then .ok draft.finish else .error .malformed
  | draft => .error (.mismatch draft .config)

/-- Reads a configuration from its text. -/
def ofJson (text : String) : Except Fault Config :=
  Decode.run decode text

/-- The name of a policy. -/
def policyName : BareEnable → String
  | .trailingRun => "trailing-run"
  | .all => "all"

/-- A configuration as a value. -/
def toJson (config : Config) : Value :=
  .record
    [("enablingComment", .string config.enabling),
     ("disablingComment", .string config.disabling),
     ("expectingComment", .string config.expecting),
     ("bareEnable", .string (policyName config.bareEnable))]

end LintDirectives.Config

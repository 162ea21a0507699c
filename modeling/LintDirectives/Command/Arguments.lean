import LintDirectives.FilePath

/-!
# Command lines

A command line is read word by word.  `Reading` is what is known between two words:
what was given before the command, what was given after it, and whether the last
word was an option that waits for its value.

* `Request.ofArguments` reads a whole command line.
-/

namespace LintDirectives.Command

/-- How reports are written. -/
inductive Layout where
  | text
  | json
deriving DecidableEq, Repr

/-- The layout that a word names. -/
def Layout.named? (word : String) : Option Layout :=
  if word = "text" then some text else if word = "json" then some json else none

/-- What a command line asks for. -/
inductive Request where
  /-- The directives of the files in a list of reports are to be applied. -/
  | apply (config : Option FilePath) (results : FilePath) (layout : Layout)
  | version
  | help
deriving DecidableEq, Repr

/-- Why reading a command line stops early. -/
inductive Stop where
  | version
  | help
  /-- The command line makes no sense. -/
  | misuse
deriving DecidableEq, Repr

/-- The options that have a value. -/
inductive Key where
  | config
  | format
deriving DecidableEq, Repr

/-- What help is asked for. -/
inductive Topic where
  | program
  | command
deriving DecidableEq, Repr

/-- What was given on one side of the command. -/
structure Given where
  config : Option String := none
  isVerbose : Bool := false
  layout : Option Layout := none
  results : Option String := none
deriving Repr

/-- What is known between two words. -/
structure Reading where
  /-- What was given before the command, once the command was read. -/
  outer : Option Given := none
  given : Given := {}
  /-- The option that waits for its value. -/
  awaiting : Option Key := none
  /-- No more options come. -/
  onlyValues : Bool := false
  /-- What help is asked for, once it is. -/
  topic : Option Topic := none

namespace Reading

/-- Takes the value of an option, which may be given once. -/
def setValue (reading : Reading) (key : Key) (value : String) : Except Stop Reading :=
  match key with
  | .config =>
    if reading.given.config.isSome || value.isEmpty then .error .misuse
    else
      .ok { reading with given := { reading.given with config := some value }, awaiting := none }
  | .format =>
    match Layout.named? value with
    | none => .error .misuse
    | some layout =>
      if reading.given.layout.isSome then .error .misuse
      else
        .ok { reading with given := { reading.given with layout := some layout }, awaiting := none }

/-- Takes the option for more output, which may be given once. -/
def setVerbose (reading : Reading) : Except Stop Reading :=
  if reading.given.isVerbose then .error .misuse
  else .ok { reading with given := { reading.given with isVerbose := true } }

/-- Takes a word that is no option. -/
def takeWord (reading : Reading) (word : String) : Except Stop Reading :=
  match reading.outer with
  | none =>
    if reading.onlyValues then .error .misuse
    else if word = "apply" then .ok { outer := some reading.given }
    else if word = "help" then .ok { reading with topic := some .program }
    else .error .misuse
  | some _ =>
    if reading.given.results.isSome || word.isEmpty then .error .misuse
    else .ok { reading with given := { reading.given with results := some word } }

/-- Takes the word after a question for help, which may name one command. -/
def takeTopic (reading : Reading) (topic : Topic) (word : String) : Except Stop Reading :=
  if topic = .program ∧ (word = "apply" ∨ word = "help") then
    .ok { reading with topic := some .command }
  else .error .misuse

/-- The option with a value that a long name stands for. -/
def longKey? (reading : Reading) (name : List Char) : Option Key :=
  if name = "config".toList then some .config
  else if name = "format".toList ∧ reading.outer.isSome then some .format
  else none

/-- Takes an option with a long name, the two dashes left out. -/
def takeLong (reading : Reading) (text : List Char) : Except Stop Reading :=
  let name := text.takeWhile (· ≠ '=')
  match reading.longKey? name, text.drop name.length with
  | some key, [] => .ok { reading with awaiting := some key }
  | some key, _ :: value => reading.setValue key (String.ofList value)
  | none, [] =>
    if name = "verbose".toList then reading.setVerbose
    else if name = "help".toList then .error .help
    else if name = "version".toList ∧ reading.outer.isNone then .error .version
    else .error .misuse
  | none, _ :: _ => .error .misuse

/-- The option with a value that a letter stands for. -/
def shortKey? (reading : Reading) (letter : Char) : Option Key :=
  if letter = 'c' then some .config
  else if letter = 'f' ∧ reading.outer.isSome then some .format
  else none

/-- Takes options of one letter each, the dash left out. -/
def takeLetters (reading : Reading) : List Char → Except Stop Reading
  | [] => .ok reading
  | letter :: rest =>
    match reading.shortKey? letter with
    | some key =>
      match rest with
      | [] => .ok { reading with awaiting := some key }
      | '=' :: value => reading.setValue key (String.ofList value)
      | value => reading.setValue key (String.ofList value)
    | none =>
      if letter = 'v' then reading.setVerbose.bind (takeLetters · rest)
      else if letter = 'h' then .error .help
      else if letter = 'V' ∧ reading.outer.isNone then .error .version
      else .error .misuse

/-- Takes the next word. -/
def step (reading : Reading) (word : String) : Except Stop Reading :=
  match reading.topic, reading.awaiting with
  | some topic, _ => reading.takeTopic topic word
  | none, some key =>
    if word.toList.head? = some '-' ∧ word ≠ "-" then .error .misuse
    else reading.setValue key word
  | none, none =>
    if reading.onlyValues then reading.takeWord word
    else match word.toList with
      | ['-', '-'] => .ok { reading with onlyValues := true }
      | '-' :: '-' :: text => reading.takeLong text
      | '-' :: letter :: letters => reading.takeLetters (letter :: letters)
      | _ => reading.takeWord word

/-- What the command line asked for, once all words were read.  An option after the command
wins over the same option before it. -/
def finish (reading : Reading) : Except Stop Request :=
  if reading.topic.isSome then .error .help
  else match reading.awaiting, reading.outer, reading.given.results with
  | none, some outer, some results =>
    .ok <| .apply ((reading.given.config.or outer.config).map FilePath.mk) ⟨results⟩
      (reading.given.layout.getD .text)
  | _, _, _ => .error .misuse

end Reading

/-- What a command line asks for; `none` when it makes no sense. -/
def Request.ofArguments (arguments : List String) : Option Request :=
  match (arguments.foldlM Reading.step {}).bind Reading.finish with
  | .ok request => some request
  | .error .version => some .version
  | .error .help => some .help
  | .error .misuse => none

end LintDirectives.Command

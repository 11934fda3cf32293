import ObjectLayout.Log.Level

/-!
# Arguments of the command

The words of a command line are taken one after another. An option that needs a value waits for the
next word, unless its value stands in the same word; after the word `--` every word is the name of a
file.
-/

set_option autoImplicit false

namespace ObjectLayout.Command

/-- What the command is told to do. -/
structure Arguments where
  /-- The name of the file of classes. -/
  classes : String
  config : Option String := none
  json : Bool := false
  verbosity : Nat := 0
  logLevel : Option String := none
deriving DecidableEq, Repr

/-- The level of the log: the one that is named, or else the one set from outside, or else the one
for so many requests for more output. -/
def Arguments.level (arguments : Arguments) (outside : Option LogLevel) : LogLevel :=
  match arguments.logLevel with
  | some text => .ofText text
  | none => outside.getD (.ofVerbosity arguments.verbosity)

/-- Why a command line is not carried out. -/
inductive Diversion where
  | help
  | version
  | misuse
deriving DecidableEq, Repr

/-- The options that need a value. -/
inductive ValueOption where
  | config
  | logLevel
deriving DecidableEq, Repr

/-- What the words taken so far say. -/
structure Collected where
  /-- The file of classes, once it is named. -/
  classes : Option String := none
  config : Option String := none
  json : Bool := false
  verbosity : Nat := 0
  logLevel : Option String := none
  /-- The option that waits for its value. -/
  awaiting : Option ValueOption := none
  /-- Whether options have ended. -/
  optionsEnded : Bool := false
deriving DecidableEq, Repr, Inhabited

namespace Collected

/-- Takes the name of the file of classes. There is one such file, and its name is not empty. -/
def addFile (c : Collected) (name : String) : Except Diversion Collected :=
  if c.classes.isSome ∨ name = "" then .error .misuse else .ok { c with classes := some name }

/-- Gives an option its value, which it takes once. The name of a file is not empty. -/
def setValue (c : Collected) (option : ValueOption) (value : String) :
    Except Diversion Collected :=
  match option with
  | .config =>
    if c.config.isSome ∨ value = "" then .error .misuse
    else .ok { c with config := some value, awaiting := none }
  | .logLevel =>
    if c.logLevel.isSome then .error .misuse
    else .ok { c with logLevel := some value, awaiting := none }

/-- Asks for reports as JSON, which can be done once. -/
def setJson (c : Collected) : Except Diversion Collected :=
  if c.json then .error .misuse else .ok { c with json := true }

/-- Asks for more output. -/
def addVerbose (c : Collected) : Collected := { c with verbosity := c.verbosity + 1 }

/-- Takes the letters of a word that begins with one dash. -/
def addLetters (c : Collected) : List Char → Except Diversion Collected
  | [] => .ok c
  | 'v' :: rest => c.addVerbose.addLetters rest
  | 'h' :: _ => .error .help
  | 'V' :: _ => .error .version
  | ['c'] => .ok { c with awaiting := some .config }
  | 'c' :: '=' :: value => c.setValue .config (String.ofList value)
  | 'c' :: value => c.setValue .config (String.ofList value)
  | _ => .error .misuse

/-- Takes a word that begins with two dashes, without them. -/
def addLong (c : Collected) (word : List Char) : Except Diversion Collected :=
  let name := String.ofList (word.takeWhile (· ≠ '='))
  match name, word.dropWhile (· ≠ '=') with
  | "config", [] => .ok { c with awaiting := some .config }
  | "config", _ :: value => c.setValue .config (String.ofList value)
  | "log-level", [] => .ok { c with awaiting := some .logLevel }
  | "log-level", _ :: value => c.setValue .logLevel (String.ofList value)
  | "json", [] => c.setJson
  | "verbose", [] => .ok c.addVerbose
  | "help", [] => .error .help
  | "version", [] => .error .version
  | _, _ => .error .misuse

/-- Takes one word. A dash by itself is an ordinary word. -/
def addWord (c : Collected) (word : String) : Except Diversion Collected :=
  if c.optionsEnded then c.addFile word
  else
    match c.awaiting, word.toList with
    | some _, '-' :: _ :: _ => .error .misuse
    | some option, _ => c.setValue option word
    | none, ['-', '-'] => .ok { c with optionsEnded := true }
    | none, '-' :: '-' :: long => c.addLong long
    | none, '-' :: letter :: letters => c.addLetters (letter :: letters)
    | none, _ => c.addFile word

/-- The arguments, provided that no value is missing and a file of classes is named. -/
def finish (c : Collected) : Except Diversion Arguments :=
  match c.awaiting, c.classes with
  | none, some classes =>
    .ok { classes, config := c.config, json := c.json, verbosity := c.verbosity,
          logLevel := c.logLevel }
  | _, _ => .error .misuse

end Collected

/-- The arguments that a command line says. -/
def Arguments.parse (words : List String) : Except Diversion Arguments := do
  let collected ← words.foldlM Collected.addWord default
  collected.finish

end ObjectLayout.Command

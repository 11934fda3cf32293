import ObjectLayout.Command.Arguments
import ObjectLayout.Form.Document
import ObjectLayout.Form.Report
import ObjectLayout.Json.Printer
import ObjectLayout.Registry.Build

/-!
# Runs of the command

A run reads a file of classes, builds every class in it and reports the descriptors. A class that
cannot be built is reported as a failure, and the run goes on with the next one.
-/

set_option autoImplicit false

namespace ObjectLayout.Command

/-- Why a run cannot begin. -/
inductive Refusal where
  /-- The file of classes cannot be read. -/
  | unreadable (file : String)
  /-- The file of classes holds no document. -/
  | malformed (file : String)
  /-- The file of the configuration cannot be read. -/
  | configUnreadable (file : String)
  /-- The file of the configuration holds no configuration. -/
  | configMalformed (file : String)
  /-- The file of the configuration holds one that cannot be used. -/
  | configInvalid (file : String) (error : LayoutError)
  /-- The configuration of the document cannot be used. -/
  | invalid (error : LayoutError)
deriving DecidableEq, Repr

/-- What the system says of a file that is not there. -/
def missingFile : String := "No such file or directory (os error 2)"

/-- The refusal in words. -/
def Refusal.message : Refusal → String
  | unreadable file => s!"reading {file}: {missingFile}"
  | malformed file => s!"parsing {file}"
  | configUnreadable file => s!"loading config {file}: {missingFile}"
  | configMalformed file => s!"loading config {file}"
  | configInvalid file error => s!"loading config {file}: {error}"
  | invalid error => error.message

/-- The contents of files by name. -/
abbrev Files := String → Option String

/-- Reads a file of classes. -/
def loadDocument (files : Files) (file : String) : Except Refusal LayoutDocument :=
  match files file with
  | none => .error (.unreadable file)
  | some text =>
    match LayoutDocument.ofText? text with
    | none => .error (.malformed file)
    | some document => .ok document

/-- Reads a file of a configuration. -/
def loadConfig (files : Files) (file : String) : Except Refusal LayoutConfig :=
  match files file with
  | none => .error (.configUnreadable file)
  | some text =>
    match LayoutConfig.ofText? text with
    | none => .error (.configMalformed file)
    | some config =>
      match config.validate with
      | .error error => .error (.configInvalid file error)
      | .ok _ => .ok config

/-- What a run works on: a configuration and definitions. A configuration in a file of its own goes
before the one in the document. -/
def loadInput (files : Files) (arguments : Arguments) :
    Except Refusal (LayoutConfig × DefinitionSet) := do
  let document ← loadDocument files arguments.classes
  let config ←
    match arguments.config with
    | some file => loadConfig files file
    | none => .ok (document.config.getD {})
  return (config, document.definitions)

/-- What became of one class. -/
structure ClassOutcome where
  cls : ClassId
  /-- What happened meanwhile. -/
  events : List Event
  /-- The descriptor, or why there is none. -/
  answer : Except LayoutError Descriptor
deriving Repr

/-- Builds classes one after another, and answers what became of each. -/
def buildEach (setup : RegistrySetup) :
    Registry → List ClassDefinition → List ClassOutcome × Registry
  | registry, [] => ([], registry)
  | registry, definition :: rest =>
    let (answer, after) := (Registry.buildDefinition setup definition).exec registry.clearJournal
    let (outcomes, last) := buildEach setup after rest
    ({ cls := definition.id, events := after.journal.events.toList, answer } :: outcomes, last)

/-- The descriptor, if the class could be built. -/
def ClassOutcome.descriptor? (outcome : ClassOutcome) : Option Descriptor :=
  outcome.answer.toOption

/-- Whether the class could not be built. -/
def ClassOutcome.hasFailed (outcome : ClassOutcome) : Bool := outcome.descriptor?.isNone

/-- What a run leaves behind. -/
structure Outcome where
  exitCode : Nat
  stdout : String := ""
  stderr : List String := []
deriving DecidableEq, Repr

/-- A line about something that went wrong. -/
def alert (text : String) : String := "[!] " ++ text

/-- The lines of a log at a level. -/
def logLines (level : LogLevel) (events : List Event) : List String :=
  (events.filter fun event => event.level ≤ level).map Event.line

/-- The lines about one class: what happened, and then why there is no descriptor. -/
def ClassOutcome.lines (level : LogLevel) (outcome : ClassOutcome) : List String :=
  let failure :=
    match outcome.answer with
    | .ok _ => []
    | .error error => [alert s!"{outcome.cls}: {error}"]
  logLines level outcome.events ++ failure

/-- Reports as a JSON array on lines of its own. -/
def jsonOutput (reports : List LayoutReport) : String :=
  (Json.ofList LayoutReport.toJson reports).pretty ++ "\n"

/-- A report with its class in front and an empty line behind. -/
def listingOutput (report : LayoutReport) : String :=
  s!"[+] {report.id}\n{report.listing}\n"

/-- What a run over definitions leaves behind. -/
def runDefinitions (arguments : Arguments) (level : LogLevel) (setup : RegistrySetup)
    (definitions : DefinitionSet) : Outcome :=
  let (outcomes, _) := buildEach setup ∅ definitions.values
  let reports := (outcomes.filterMap ClassOutcome.descriptor?).map Descriptor.report
  let failures := outcomes.countP ClassOutcome.hasFailed
  let summary := if failures = 0 then [] else [alert s!"{failures} class(es) failed to build"]
  { exitCode := if failures = 0 then 0 else 1
    stdout :=
      if arguments.json then jsonOutput reports else String.join (reports.map listingOutput)
    stderr := outcomes.flatMap (ClassOutcome.lines level) ++ summary }

/-- What a run leaves behind. -/
def run (files : Files) (outside : Option LogLevel) (arguments : Arguments) : Outcome :=
  let level := arguments.level outside
  match loadInput files arguments with
  | .error refusal => { exitCode := 1, stderr := [alert refusal.message] }
  | .ok (config, definitions) =>
    let loaded := logLines level [.definitionsLoaded definitions.size]
    match RegistrySetup.ofConfig config (some { definitions }) with
    | .error error =>
      { exitCode := 1, stderr := loaded ++ [alert (Refusal.invalid error).message] }
    | .ok setup =>
      let outcome := runDefinitions arguments level setup definitions
      { outcome with stderr := loaded ++ outcome.stderr }

/-- The line that shows the form of a command line. -/
def usageLine : String := "Usage: exttype-layout [OPTIONS] <CLASSES>"

/-- How the command is used. -/
def usage : String :=
  String.join <| [
    "Compute extension type layouts and vtable slots",
    "",
    usageLine,
    "",
    "Arguments:",
    "  <CLASSES>  JSON file with class definitions in declaration order",
    "",
    "Options:",
    "  -c, --config <CONFIG>        JSON layout config (pointer and header sizes)",
    "      --json                   Print the layouts as JSON",
    "  -v, --verbose...             Increase verbosity (-v: info, -vv: debug, -vvv: trace)",
    "      --log-level <LOG_LEVEL>  Set log level (off, error, warn, info, debug, trace)",
    "  -h, --help                   Print help",
    "  -V, --version                Print version"].map (· ++ "\n")

/-- What a command line that is not carried out leaves behind. -/
def Diversion.outcome : Diversion → Outcome
  | help => { exitCode := 0, stdout := usage }
  | version => { exitCode := 0, stdout := "exttype-layout 1.0.0\n" }
  | misuse => { exitCode := 2, stderr := [usageLine] }

/-- What a command line leaves behind. -/
def runWords (files : Files) (outside : Option LogLevel) (words : List String) : Outcome :=
  match Arguments.parse words with
  | .error diversion => diversion.outcome
  | .ok arguments => run files outside arguments

end ObjectLayout.Command

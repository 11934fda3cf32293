/-!
# Levels of a log

How much of what happens is written to the log. An event is written when its own level is not above
the level of the log.
-/

set_option autoImplicit false

namespace ObjectLayout

/-- The level of an event or of a log. -/
inductive LogLevel where
  /-- Nothing is written. -/
  | off
  | error
  /-- What deserves attention. -/
  | warn
  /-- What a run does, in outline. -/
  | info
  | debug
  /-- Every single step. -/
  | trace
deriving DecidableEq, Repr

namespace LogLevel

instance : Inhabited LogLevel := ⟨info⟩

/-- The place of the level, counted from `off`. -/
def rank : LogLevel → Nat
  | off => 0
  | error => 1
  | warn => 2
  | info => 3
  | debug => 4
  | trace => 5

/-- Levels are ordered by what they let through. -/
instance : LE LogLevel := ⟨fun a b => a.rank ≤ b.rank⟩

instance (a b : LogLevel) : Decidable (a ≤ b) :=
  inferInstanceAs (Decidable (a.rank ≤ b.rank))

/-- The name of the level in the lines of a log. -/
def label : LogLevel → String
  | off => "OFF"
  | error => "ERROR"
  | warn => "WARN"
  | info => "INFO"
  | debug => "DEBUG"
  | trace => "TRACE"

/-- The level after so many requests for more output. -/
def ofVerbosity : Nat → LogLevel
  | 0 => warn
  | 1 => info
  | 2 => debug
  | _ => trace

/-- The level of that name, in letters of either case, and `info` for every other text. -/
def ofText (text : String) : LogLevel :=
  match text.map Char.toLower with
  | "off" => off
  | "error" => error
  | "warn" | "warning" => warn
  | "info" => info
  | "debug" => debug
  | "trace" => trace
  | _ => default

end LogLevel

end ObjectLayout

import Tabula.Datum
import Tabula.Text.Casing

/-!
Log events: a level, a name, and fields. The fields of an event win over those bound to a logger,
and these over those of the context in which it is written.
-/

namespace Tabula

inductive LogLevel
  | debug
  | info
  | warning
  | error
  | critical
  deriving DecidableEq, Repr

namespace LogLevel

def name : LogLevel → String
  | debug => "debug"
  | info => "info"
  | warning => "warning"
  | error => "error"
  | critical => "critical"

def all : List LogLevel := [debug, info, warning, error, critical]

def named? (name : String) : Option LogLevel := all.find? (·.name == name)

def severity : LogLevel → Nat
  | debug => 10
  | info => 20
  | warning => 30
  | error => 40
  | critical => 50

/-- The level of events that are written by a word. -/
def written? : String → Option LogLevel
  | "warn" => some warning
  | "fatal" => some critical
  | "exception" => some error
  | "msg" => some info
  | word => named? word

end LogLevel

/-- The severity from which on events are shown, by names in capitals. -/
def thresholds : List (String × Nat) :=
  [("CRITICAL", 50), ("FATAL", 50), ("ERROR", 40), ("WARNING", 30), ("WARN", 30), ("INFO", 20),
    ("DEBUG", 10), ("NOTSET", 0)]

inductive LogFormat
  | json
  | console
  deriving DecidableEq, Repr

def LogFormat.name : LogFormat → String
  | json => "json"
  | console => "console"

def LogFormat.named? (name : String) : Option LogFormat := [json, console].find? (·.name == name)

structure LogEvent where
  level : LogLevel
  name : String
  fields : Fields

namespace LogEvent

/-- Whether an event is shown when everything below a severity is left out. -/
def isShown (least : Nat) (e : LogEvent) : Bool := least ≤ e.level.severity

/-- Fields that the writing of an event uses up. -/
def usedUp : List String := ["timestamp", "stack_info", "exc_info", "exception"]

/-- The event as a record of fields; its name and level win over fields of these names. -/
def record (e : LogEvent) : Fields :=
  ((e.fields.without usedUp).set "event" (.text e.name)).set "level" (.text e.level.name)

def padTo (width : Nat) (s : String) : String :=
  s ++ String.ofList (List.replicate (width - s.length) ' ')

/-- A datum as it is: texts without quotes. -/
def plain : Datum → String
  | .text s => s
  | d => d.shown

/-- A datum after the sign of equality: texts in quotes only if they could be misread. -/
def equated : Datum → String
  | .text s =>
      if s.toList.any [' ', '\t', '=', '\r', '\n', '"', '\''].contains then Text.quoted s else s
  | d => d.shown

def dropTrailingSpaces (s : String) : String :=
  String.ofList (s.toList.reverse.dropWhile (· = ' ')).reverse

/-- Fields that have a place of their own on the console, or none. -/
def placed : List String := ["event", "level", "logger", "logger_name", "stack"] ++ usedUp

/-- The line of an event on the console: level and name, the names of loggers between brackets, then
the other fields in the order of their names. -/
def line (e : LogEvent) : String :=
  let loggers := ["logger", "logger_name"].filterMap e.fields.get?
  let others := (e.fields.without placed).entries.mergeSort fun a b => decide (a.1 ≤ b.1)
  dropTrailingSpaces <| " ".intercalate <|
    ["[" ++ padTo 9 e.level.name ++ "]", padTo 30 e.name] ++
      loggers.map (fun d => "[" ++ plain d ++ "]") ++ others.map fun c => c.1 ++ "=" ++ equated c.2

end LogEvent

end Tabula

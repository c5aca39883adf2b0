import Tabula.Backend
import Tabula.Config.Environment
import Tabula.Config.Setting
import Tabula.Sql.Print
import Tabula.Telemetry.Event

/-!
The configuration of an engine: how statements are written, the order of rows after a ranking, the
database, and what is observed. Settings come from arguments, from the environment where there is no
argument, or are the defaults.
-/

namespace Tabula

structure Config where
  style : Sql.Style
  rowOrder : RowOrder
  database : String
  threads : Int
  logLevel : LogLevel
  logFormat : LogFormat
  endpoint : Option String
  service : String
  metricsPort : Int

namespace Config

/-- Levels of the log are named in capitals. -/
def levelNamed? (name : String) : Option LogLevel :=
  LogLevel.all.find? fun l => l.name.map Char.toUpper == name

def levelName (l : LogLevel) : String := l.name.map Char.toUpper

/-- The groups of settings, and the names of the settings in them. -/
def groups : List (String × List String) :=
  [("compiler", ["dialect", "identifier_quoting", "pretty"]),
    ("interpreter", ["window_row_order"]),
    ("backend", ["database", "threads"]),
    ("observability",
      ["log_level", "log_format", "otel_endpoint", "otel_service_name", "metrics_port"])]

/-- The groups of arguments by the names of groups, which are the same in any case, and other
arguments by their own. -/
def arrange (arguments : Fields) : Fields :=
  ⟨Entries.ofList <| arguments.entries.map fun a =>
    let name := Text.lower a.1
    (if (groups.lookup name).isSome then name else a.1, a.2)⟩

/-- The settings of both, those of the second winning; what is no group wins as a whole. -/
def merge : Option Datum → Option Datum → Option Datum
  | d, none => d
  | some (.group a), some (.group b) => some (.group (Entries.update a b))
  | _, d => d

/-- Arguments that are no group of settings. -/
def stray (arguments : Fields) : Checked Unit :=
  match arguments.names.filter fun n => (groups.lookup n).isNone with
  | [] => .ok ()
  | names => .wrong (names.map fun n => ⟨[n], .unknown⟩)

/-- All settings by group. -/
structure Groups where
  compiler : Datum
  interpreter : Datum
  backend : Datum
  observability : Datum

def readStyle (d : Datum) : Checked Sql.Style :=
  let setting {α : Type} (name : String) (reader : Datum → Except SettingFault α) (default : α) :=
    d.setting "compiler" name reader default
  (Checked.ok Sql.Style.mk)
    |>.alongside (d.checkGroup "compiler")
    |>.apply (setting "dialect" (Datum.asOption .notAnOption Dialect.named?) .reference)
    |>.apply (setting "identifier_quoting" Datum.asBool true)
    |>.apply (setting "pretty" Datum.asBool false)

/-- Reads all settings, in the order in which they are listed here. -/
def read (gs : Groups) : Checked Config :=
  let backend {α : Type} (name : String) (reader : Datum → Except SettingFault α) (default : α) :=
    gs.backend.setting "backend" name reader default
  let observed {α : Type} (name : String) (reader : Datum → Except SettingFault α) (default : α) :=
    gs.observability.setting "observability" name reader default
  (Checked.ok Config.mk)
    |>.apply (readStyle gs.compiler)
    |>.alongside (gs.interpreter.checkGroup "interpreter")
    |>.apply (gs.interpreter.setting "interpreter" "window_row_order"
        (Datum.asOption .notAnOption RowOrder.named?) .partition)
    |>.alongside (gs.backend.checkGroup "backend")
    |>.apply (backend "database" Datum.asText Backend.inMemory)
    |>.apply (backend "threads" (Datum.asIntBetween 1 256) 1)
    |>.alongside (gs.observability.checkGroup "observability")
    |>.apply (observed "log_level" (Datum.asOption .notALiteral levelNamed?) .info)
    |>.apply (observed "log_format" (Datum.asOption .notALiteral LogFormat.named?) .json)
    |>.apply (observed "otel_endpoint" Datum.asOptionalText none)
    |>.apply (observed "otel_service_name" Datum.asText "plan_engine")
    |>.apply (observed "metrics_port" (Datum.asIntBetween 1 65535) 8001)

end Config

/-- Why there is no configuration. -/
inductive ConfigFault
  /-- What the environment says of a group cannot be read. -/
  | unreadable (group : String)
  | wrong (errors : List SettingError)

namespace Config

/-- The settings of a group; the arguments win over the environment. -/
def gather (environment : Environment) (arguments : Fields) (name : String) :
    Except ConfigFault Datum :=
  match environment.group? name ((groups.lookup name).getD []) with
  | none => .error (.unreadable name)
  | some found => .ok ((merge found (arguments.get? name)).getD (.group []))

/-- The configuration that the environment and the arguments give. -/
def load (environment : Environment) (arguments : Fields) : Except ConfigFault Config := do
  let arguments := arrange arguments
  let group := gather environment arguments
  let gs : Groups :=
    ⟨← group "compiler", ← group "interpreter", ← group "backend", ← group "observability"⟩
  match (read gs).alongside (stray arguments) with
  | .ok c => return c
  | .wrong errors => throw (.wrong errors)

end Config

end Tabula

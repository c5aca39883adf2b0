import Tabula.Telemetry

/-!
Sessions of a log: a threshold, fields bound to the logger, and events written before, inside and
after the context of a plan. What cannot be asked for ends the session.
-/

namespace Tabula

/-- An event as it is asked for, by the word that writes it. -/
structure LogEntry where
  word : String
  name : String
  fields : Fields

structure LogSession where
  /-- The name of the least severity that is shown, in any case. -/
  least : String
  /-- Fields bound to the logger. -/
  bound : Fields
  /-- Fields of the context besides those of the plan. -/
  extra : Fields
  before : List LogEntry
  inside : List LogEntry
  after : List LogEntry

/-- A logger shows events from a severity on, with the fields that are bound to it. -/
structure Logger where
  least : Nat
  bound : Fields

namespace Logger

/-- The kind of logger that goes with a severity. -/
def kind (l : Logger) : String :=
  "BoundLoggerFilteringAt" ++
    match LogLevel.all.find? (·.severity = l.least) with
    | some level => level.name.capitalize
    | none => "Notset"

/-- The call that writes or leaves out an event, and the arguments that it gives by place. -/
def writing (l : Logger) (word : String) (level : LogLevel) : List (String × List String) :=
  if word = "exception" then [("exception", ["self", "event"])]
  else if level.severity < l.least then [("_nop", ["self", "event"])]
  else
    [("_make_filtering_bound_logger.<locals>.make_method.<locals>.meth", ["self", "event"]),
      ("BoundLoggerBase._proxy_to_logger", ["method_name"])]

def write (l : Logger) (e : LogEntry) : Observed Unit := do
  match LogLevel.written? e.word with
  | none => throw (.noAttribute ("'" ++ l.kind ++ "' object") e.word)
  | some level =>
      (l.writing e.word level).forM fun c => Observed.ofResult (e.fields.refuse c.1 false c.2)
      Observed.log level e.name (l.bound.update e.fields)

end Logger

namespace LogSession

/-- Sets a logger up. -/
def logger (s : LogSession) : Result Logger := do
  let name := Text.upper s.least
  match thresholds.lookup name with
  | none => .error (.noAttribute "module 'logging'" name)
  | some least =>
      s.bound.refuse "get_logger" false ["name"]
      s.bound.refuse "BoundLoggerLazyProxy.bind" false ["self"]
      return ⟨least, s.bound⟩

/-- The events that a session over a plan shows. -/
def events (s : LogSession) (p : Plan) : Result (List LogEvent) := do
  let l ← s.logger
  let context ← p.contextWith s.extra
  let work : Observed Unit := do
    s.before.forM l.write
    Observed.inContext context (s.inside.forM l.write)
    s.after.forM l.write
  let (r, o) := work.run.run (.start none)
  r
  return o.events.filter (·.isShown l.least)

end LogSession

end Tabula

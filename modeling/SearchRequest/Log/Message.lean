import SearchRequest.Log.Level
import SearchRequest.Log.Template
import SearchRequest.Settings
/-
Logging a message: the level of the method, the name of the logger, and the filled-in template.
-/
namespace SearchRequest.Log

/-- The ways to log a message. `trace` logs at the level of the settings. -/
inductive Method
  | debug | warning | trace
  deriving DecidableEq, Repr

/-- The level of a method. -/
def Method.level (s : Settings) : Method → Int
  | debug => Log.debug
  | warning => Log.warning
  | trace => levelOf s.logLevel

/-- A record at a level; at level zero nothing is logged. -/
def record (level : Int) (logger text : String) : List LogRecord :=
  if level = 0 then [] else [⟨level, logger, text⟩]

/-- What a message logs. A template whose arguments do not fit is a misuse, unless nothing would
be logged. -/
def message (s : Settings) (m : Method) (logger template : String) (args : List Value) :
    Except Misuse (List LogRecord) :=
  if m.level s = 0 then .ok []
  else (Template.render template args).map (record (m.level s) logger)

end SearchRequest.Log

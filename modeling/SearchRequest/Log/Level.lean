import SearchRequest.Text.Case
import SearchRequest.Error.Misuse
import SearchRequest.Value.Basic
/-
Log records and the levels they are logged at.
-/
namespace SearchRequest

/-- A log record: its level, the name of the logger, and its text. -/
structure LogRecord where
  level : Int
  logger : String
  text : String
  deriving DecidableEq, Repr

namespace Log

/-- The levels by name. -/
def levels : List (String × Int) :=
  [("CRITICAL", 50), ("FATAL", 50), ("ERROR", 40), ("WARNING", 30), ("WARN", 30), ("INFO", 20),
    ("DEBUG", 10), ("NOTSET", 0)]

def debug : Int := 10
def info : Int := 20
def warning : Int := 30

/-- The level of a name in any case; unknown names give the level for information. -/
def levelOf (name : String) : Int :=
  (levels.lookup (Text.upper name)).getD info

/-- The level that any value names. What counts as absent gives the level for information, and a
value that is no text has no letters to compare. -/
def levelOfValue (v : Value) : Except Misuse Int :=
  match v with
  | .str s => .ok (levelOf s)
  | .bytes _ => .ok info
  | v => if v.truthy then .error .part else .ok info

/-- The logger that all others are part of. -/
def rootLogger : String := "elasticwhere"

/-- The logger of a part; without a name it is the root logger. -/
def loggerName (name : String) : String :=
  if name.isEmpty then rootLogger else rootLogger ++ "." ++ name

/-- The layout of a log line. -/
def lineFormat : String := "%(asctime)s %(levelname)s [%(name)s] %(message)s"

/-- The levels that a sequence of set-ups takes effect with: only the first one does. -/
def configured (levels : List Value) : Except Misuse (List Int) :=
  match levels with
  | [] => .ok []
  | v :: _ => (levelOfValue v).map fun level => [level]

end Log

end SearchRequest

import Strongbox.Failure
import Strongbox.Text.Lines

/-!
# The log

Notices have a level, the name of the part of the program that gives them, and a message. Those below the
configured threshold are not written. Every line carries the trace id of the request it belongs to.
-/

namespace Strongbox.Log

inductive Level where
  | debug
  | info
  | warning
  | error
  | critical
  deriving DecidableEq, Repr

namespace Level

def weight : Level → Nat
  | debug => 10
  | info => 20
  | warning => 30
  | error => 40
  | critical => 50

def name : Level → String
  | debug => "DEBUG"
  | info => "INFO"
  | warning => "WARNING"
  | error => "ERROR"
  | critical => "CRITICAL"

def ofName? (t : Text) : Option Level :=
  if t = Text.ofString "DEBUG" then some debug
  else if t = Text.ofString "INFO" then some info
  else if t = Text.ofString "WARNING" || t = Text.ofString "WARN" then some warning
  else if t = Text.ofString "ERROR" then some error
  else if t = Text.ofString "CRITICAL" || t = Text.ofString "FATAL" then some critical
  else none

end Level

structure Notice where
  level : Level
  logger : Text
  message : Text
  deriving DecidableEq, Repr

def Notice.line (n : Notice) : Text :=
  Text.ofString n.level.name ++ [32] ++ n.logger ++ Text.ofString ": " ++ n.message

def threshold? (name : Text) : Option Nat :=
  let name := name.upper
  if name = Text.ofString "NOTSET" then some 0 else (Level.ofName? name).map Level.weight

structure Setup where
  writers : Nat := 0
  threshold : Nat := 30
  trace : Text := Text.ofString "-"
  deriving DecidableEq, Repr

namespace Setup

def defaultLevel : Text := Text.ofString "INFO"

/-- Sets the trace id, or a fresh one in place of none. -/
def withTrace (fresh id : Text) (s : Setup) : Setup := { s with trace := if id.isEmpty then fresh else id }

/-- Installs one writer in place of any other, and sets the threshold. A level that is unknown, or not even a
name, leaves the threshold as it was. -/
def configure (s : Setup) (level : Option Text) : Outcome Unit × Setup :=
  match level with
  | none => (Outcome.fail .noSuchOperation, { s with writers := 1 })
  | some name =>
    match threshold? name with
    | some threshold => (.ok (), { s with writers := 1, threshold })
    | none => (Outcome.fail .badValue, { s with writers := 1 })

def loggerName (name : Text) : Text := if name.isEmpty then Text.ofString "root" else name

/-- The lines that a notice leaves in the log, without their time. -/
def write (s : Setup) (n : Notice) : List Text :=
  if n.level.weight < s.threshold then []
  else (List.replicate s.writers (Text.ofString n.level.name ++ Text.ofString " [" ++ s.trace ++
    Text.ofString "] " ++ loggerName n.logger ++ Text.ofString ": " ++ n.message)).flatMap Text.lines

end Setup

end Strongbox.Log

import Strongbox.Json.Parser
import Strongbox.Timestamp

/-!
# Checked values

A value is checked against a shape. All problems are collected, in the order of the fields, each with the
path to where it was found.
-/

namespace Strongbox.Schema

inductive Problem where
  | missing
  | modelType
  | attributesType
  | listType
  | stringType
  | stringUnicode
  | intType
  | intParsing
  | intTooLong
  | intFromFraction
  | finiteNumber
  | boolType
  | boolParsing
  | realType
  | realParsing
  | timeType
  | timeParsing
  | timeFromDate
  | malformed
  | rule (message : String)
  deriving DecidableEq, Repr

inductive Step where
  | field (name : Text)
  | index (i : Nat)
  deriving DecidableEq, Repr

structure Issue where
  problem : Problem
  path : List Step
  deriving DecidableEq, Repr

def Issue.under (step : Step) (issue : Issue) : Issue := { issue with path := step :: issue.path }

abbrev Checked (α : Type) := Except (List Issue) α

namespace Checked

def problem (p : Problem) : Checked α := .error [⟨p, []⟩]

/-- Applies a checked function; the problems of both sides are kept. -/
def ap (f : Checked (α → β)) (x : Checked α) : Checked β :=
  match f, x with
  | .ok f, .ok x => .ok (f x)
  | .ok _, .error e => .error e
  | .error e, .ok _ => .error e
  | .error e, .error e' => .error (e ++ e')

def under (step : Step) (x : Checked α) : Checked α := x.mapError (List.map (Issue.under step))

def forEach (check : Json → Checked α) (i : Nat) : List Json → Checked (List α)
  | [] => .ok []
  | v :: rest =>
    ap (Except.map List.cons (under (.index i) (check v))) (forEach check (i + 1) rest)

end Checked

/-- Where a value comes from: read from the text of a document, or already a value. -/
inductive Origin where
  | document
  | value
  deriving DecidableEq, Repr

end Strongbox.Schema

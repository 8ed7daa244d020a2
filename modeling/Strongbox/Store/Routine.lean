import Strongbox.Binary64.Rounded
import Strongbox.Log
import Strongbox.Store.Attempt
import Strongbox.Store.Tables

/-!
# Calls as routines of statements

A routine gives notices and runs statements one after the other; what it does next depends on the replies.
The first write opens a transaction, which sees its own changes. It is committed when the routine ends well,
and discarded in every other case.
-/

namespace Strongbox.Store

/-- A statement: whether it writes, and what it does to the tables that it sees. -/
structure Statement (β : Type) where
  writes : Bool
  /-- Others get a turn after it. Not so for what a session does for its objects: adding them, and getting
  one by its number. -/
  yields : Bool := true
  run : Tables → Except Fault (β × Tables)

def unavailable : Failure := Breakdown.operation.toFailure

inductive Routine (α : Type) : Type 1 where
  | finish (result : Outcome α)
  | note (notice : Log.Notice) (rest : Routine α)
  | execute {β : Type} (statement : Statement β) (rest : β → Routine α)

namespace Routine

def bind : Routine α → (α → Routine β) → Routine β
  | .finish (.ok x), f => f x
  | .finish (.error e), _ => .finish (.error e)
  | .note n rest, f => .note n (rest.bind f)
  | .execute s rest, f => .execute s fun reply => (rest reply).bind f

instance : Monad Routine where
  pure x := .finish (.ok x)
  bind := bind

def reject (e : VaultError) : Routine α := .finish (Outcome.reject e)

def ofOutcome (x : Outcome α) : Routine α := .finish x

def say (level : Log.Level) (logger message : Text) : Routine Unit :=
  .note ⟨level, logger, message⟩ (.finish (.ok ()))

def statement (s : Statement β) : Routine β := .execute s fun reply => .finish (.ok reply)

end Routine

/-- The database that others see, absent when its tables are; and the transaction of the call, if it has
written. -/
structure Session where
  database : Option Tables
  pending : Option Tables := none
  locked : Bool := false

namespace Session

def visible (s : Session) : Option Tables :=
  match s.pending with
  | some t => some t
  | none => s.database

/-- Runs a statement. Without tables, or against another writer, the store fails. -/
def execute (s : Session) (statement : Statement β) : Outcome (β × Session) :=
  match s.visible with
  | none => .error unavailable
  | some tables =>
    match statement.run tables with
    | .error f => Outcome.fail f
    | .ok (reply, tables) =>
      if statement.writes then
        if s.locked then .error unavailable else .ok (reply, { s with pending := some tables })
      else .ok (reply, s)

def committed (s : Session) : Option Tables := s.visible

end Session

structure Turn (ρ : Type) where
  database : Option Tables
  notices : List Log.Notice := []
  reports : List ρ := []

/-- What happens around a call: what others do with the database at their turns, told whether the call is
writing; and whether the call is stopped there, with the failure that it ends in. A call can be
stopped at the turn after its last statement, before anything is committed. -/
structure Surroundings (ρ : Type) where
  others : (done : Nat) → Option Tables → (writing : Bool) → Turn ρ
  stops : (done : Nat) → Option Failure
  /-- What goes wrong with the next statement after so many, or with the commit after the last of them: the
  store breaks down, or the time is over. Of the store's driver it is assumed that a commit that is broken off has not
  taken place; a driver that may still carry it out is not covered. -/
  breaks : (done : Nat) → Option Failure := fun _ => none

def undisturbed : Surroundings ρ :=
  { others := fun _ database _ => ⟨database, [], []⟩, stops := fun _ => none }

structure Ended (α ρ : Type) where
  result : Outcome α
  database : Option Tables
  notices : List Log.Notice
  reports : List ρ

def Routine.run (around : Surroundings ρ) : (done : Nat) → Session → Routine α → Ended α ρ
  | done, s, .finish (.ok x) =>
    match around.breaks done with
    | some f => ⟨.error f, s.database, [], []⟩
    | none => ⟨.ok x, s.committed, [], []⟩
  | _, s, .finish (.error e) => ⟨.error e, s.database, [], []⟩
  | done, s, .note n rest =>
    let ended := rest.run around done s
    { ended with notices := n :: ended.notices }
  | done, s, .execute statement rest =>
    match around.breaks done with
    | some f => ⟨.error f, s.database, [], []⟩
    | none =>
      match s.execute statement with
      | .error e => ⟨.error e, s.database, [], []⟩
      | .ok (reply, s) =>
        if statement.yields then
          let turn := around.others (done + 1) s.database s.pending.isSome
          match around.stops (done + 1) with
          | some f => ⟨.error f, turn.database, turn.notices, turn.reports⟩
          | none =>
            let ended := (rest reply).run around (done + 1) { s with database := turn.database }
            { ended with
              notices := turn.notices ++ ended.notices
              reports := turn.reports ++ ended.reports }
        else (rest reply).run around (done + 1) s

def logger : Text := Text.ofString "passvault.app.services.store"

def timeoutNotice (timeout : Binary64) : Log.Notice :=
  ⟨.warning, logger, Text.ofString "store operation timed out after " ++ timeout.toTenths ++
    Text.ofString "s"⟩

def failureNotice (retryable : Bool) : Log.Notice :=
  ⟨.error, logger, Text.ofString "store operation failed (retryable=" ++
    Text.ofString (if retryable then "True" else "False") ++ Text.ofString ")"⟩

def endNotices (timeout : Binary64) : Outcome α → List Log.Notice
  | .ok _ => []
  | .error (.fault _) => []
  | .error (.vault e) =>
    match e.kind with
    | .cancelled => [timeoutNotice timeout]
    | .internal retryable => [failureNotice retryable]
    | _ => []

/-- Runs a call with so many seconds of time. Without any time it is cancelled before it starts. -/
def runCall (around : Surroundings ρ) (timeout : Binary64) (session : Session) (r : Routine α) :
    Ended α ρ :=
  let ended : Ended α ρ :=
    if timeout.isPositive then r.run around 0 session
    else ⟨.error cancelled, session.database, [], []⟩
  { ended with notices := ended.notices ++ endNotices timeout ended.result }

end Strongbox.Store

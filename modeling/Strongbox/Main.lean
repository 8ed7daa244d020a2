import Strongbox.Log
import Strongbox.Settings.Engine
import Strongbox.Store.Database

/-!
# The command line

Sets up the tables of the configured database and says so in the log. With `--drop` they are dropped first.
-/

namespace Strongbox.Main

open Strongbox

def logger : Text := Text.ofString "passvault.app.db"

def notices (engine : Engine) : List Log.Notice :=
  [⟨.info, logger, Text.ofString "creating tables on " ++ engine.address.display⟩,
    ⟨.info, logger, Text.ofString "tables created"⟩]

def tableLine (table : String × List Database.Column) (rows : Nat) : String :=
  table.1 ++ ": " ++ ", ".intercalate (table.2.map (·.name)) ++ " (" ++ toString rows ++ " rows)"

def tableLines (db : Database) : List String :=
  match db with
  | none => []
  | some t => (Database.columns.zip (Database.rowCounts t)).map fun (table, rows) => tableLine table rows

def environment : IO (List (Text × Text)) := do
  let pairs ← Settings.names.mapM fun name => return (name, ← IO.getEnv name)
  return pairs.filterMap fun (name, value) =>
    value.map fun v => (Text.ofString name, Text.ofString v)

def settingsFile : IO Text := do
  try return Text.ofString (← IO.FS.readFile ".env")
  catch _ => return []

end Strongbox.Main

open Strongbox in
def main (arguments : List String) : IO UInt32 := do
  match Settings.load [] (← Main.environment) (← Main.settingsFile) with
  | .error _ => IO.eprintln "invalid settings"; return 1
  | .ok settings =>
    match Engine.ofSettings settings, ({} : Log.Setup).configure settings.logLevel with
    | .ok engine, (.ok (), log) =>
      for notice in Main.notices engine do
        for line in log.write notice do IO.println line.toDisplay
      for line in Main.tableLines (Database.setUp arguments none) do IO.println line
      return 0
    | _, _ => IO.eprintln "table creation failed"; return 1

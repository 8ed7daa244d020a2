import Strongbox.Settings.Connection
import Strongbox.Settings.Load

/-!
# Opening the database

The address is taken apart, its driver is looked up, and the pool is chosen by the kind of database.
-/

namespace Strongbox.Engine

inductive Pool where
  | unpooled
  | queued (size : Nat)
  deriving DecidableEq, Repr

end Engine

structure Engine where
  dialect : String
  driver : String
  pool : Engine.Pool
  sharedBetweenThreads : Bool
  echo : Bool
  address : Engine.Address
  deriving DecidableEq, Repr

namespace Engine

def withoutPlugins (a : Address) : Except BuildError Address :=
  if (a.values "plugin").isEmpty then .ok (a.without ["plugins"]) else .error .unknownModule

def ofSettings (s : Settings) : Except BuildError Engine := do
  let address ← (readAddress s.databaseUrl).bind withoutPlugins
  let (dialect, driver, kind) ← findDriver address.driver
  if kind = .missing then throw .driverMissing
  if dialect = "sqlite" then checkEmbedded address else checkHosted address
  if kind = .synchronous then throw .synchronous
  pure { dialect, driver, echo := s.databaseEcho, address,
         pool := if s.isSqlite then .unpooled else .queued 5,
         sharedBetweenThreads := s.isSqlite }

end Engine

end Strongbox

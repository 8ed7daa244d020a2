import Strongbox.Encoding.Percent
import Strongbox.Failure
import Strongbox.Text.Digit
import Strongbox.Text.Word

/-!
# Addresses of databases

An address names a driver, and may name a user with a password, a host with a port, a database, and options
in a query. It is shown with its password hidden.
-/

namespace Strongbox.Engine

structure Address where
  driver : Text
  user : Option Text := none
  password : Option Text := none
  host : Option Text := none
  port : Option Int := none
  database : Option Text := none
  query : List (Text × Text) := []
  deriving DecidableEq, Repr

inductive BuildError where
  | notAnAddress
  | unknownModule
  | driverMissing
  | synchronous
  | fault (f : Fault)
  deriving DecidableEq, Repr

def splitDriver? (url : Text) : Option (Text × Text) :=
  let inName (c : CodePoint) : Bool := c == 43 || Text.isWord c
  let name := url.takeWhile inName
  if name.isEmpty then none
  else (Text.dropLead? (Text.ofString "://") (url.dropWhile inName)).map (name, ·)

def splitLogin (t : Text) : Option Text × Option Text × Text :=
  let inUser (c : CodePoint) : Bool := c != 58 && c != 47
  let run := t.takeWhile inUser
  let rest := t.dropWhile inUser
  let named := match rest with
    | 58 :: more => Text.cutFirst? 64 more
    | _ => none
  match named with
  | some (password, after) => (some run, some password, after)
  | none =>
    match Text.cutLast? 64 run with
    | some (user, host) => (some user, none, host ++ rest)
    | none => (none, none, t)

def splitHost (t : Text) : Option Text × Text :=
  let plain :=
    let host := t.takeWhile fun c => c != 47 && c != 58 && c != 63
    if host.isEmpty then (none, t) else (some host, t.drop host.length)
  match t with
  | 91 :: more =>
    let run := more.takeWhile fun c => c != 47 && c != 63
    match Text.cutLast? 93 run with
    | some (host, after) => if host.isEmpty then plain else (some host, after ++ more.drop run.length)
    | none => plain
  | _ => plain

/-- The names and values of a query; values that are empty are left out. -/
def readQuery (t : Text) : List (Text × Text) :=
  let plain (part : Text) : Text := Percent.decode (part.map fun c => if c = 43 then 32 else c)
  (Text.splitBy (· == 38) t).filterMap fun part =>
    match Text.cutFirst? 61 part with
    | some (name, value) => if value.isEmpty then none else some (plain name, plain value)
    | none => none

def readPort (t : Text) : Except BuildError Int :=
  match Text.readInteger? t with
  | some port => .ok port
  | none => .error (.fault (if t.isEmpty then .badType else .badValue))

/-- The parts of an address. Its query ends with the line. -/
def readAddress (url : Text) : Except BuildError Address := do
  let some (driver, rest) := splitDriver? url | .error .notAnAddress
  let (user, password, rest) := splitLogin rest
  let (host, rest) := splitHost rest
  let (port, rest) := match rest with
    | 58 :: more =>
      let port := more.takeWhile fun c => c != 47 && c != 63
      (some port, more.drop port.length)
    | _ => (none, rest)
  let (database, rest) := match rest with
    | 47 :: more =>
      let database := more.takeWhile (· != 63)
      (some database, more.drop database.length)
    | _ => (none, rest)
  let query := match rest with
    | 63 :: more => readQuery (more.takeWhile (· != 10))
    | _ => []
  let port ← match port with
    | none => pure none
    | some t => (readPort t).map some
  pure { driver, user := user.map Percent.decode, password := password.map Percent.decode, host, port,
         database := database.map Percent.decode, query }

namespace Address

def values (a : Address) (name : String) : List Text :=
  (a.query.filter fun option => option.1 == Text.ofString name).map (·.2)

def without (a : Address) (names : List String) : Address :=
  { a with query := a.query.filter fun option => !(names.map Text.ofString).contains option.1 }

def isShowable (a : Address) : Bool :=
  ((a.user.toList ++ a.database.toList) ++ a.query.flatMap fun option => [option.1, option.2]).all
    fun part => decide part.Encodable

def display (a : Address) : Text :=
  let login := match a.user with
    | none => []
    | some user => Percent.encode (Text.ofString " +") user ++
        (if a.password.isSome then Text.ofString ":***" else []) ++ [64]
  let host := match a.host with
    | none => []
    | some host => if 58 ∈ host then 91 :: host ++ [93] else host
  let port := match a.port with
    | none => []
    | some port => 58 :: Text.ofInt port
  let database := match a.database with
    | none => []
    | some database => 47 :: Percent.encode (Text.ofString " +/") database
  let sorted := a.query.mergeSort fun x y => !(Text.before y.1 x.1)
  let plus (t : Text) : Text := (Percent.encode [32] t).map fun c => if c = 32 then 43 else c
  let query := if sorted.isEmpty then []
    else 63 :: Text.join [38] (sorted.map fun (name, value) => plus name ++ 61 :: plus value)
  a.driver ++ Text.ofString "://" ++ login ++ host ++ port ++ database ++ query

end Address

end Strongbox.Engine

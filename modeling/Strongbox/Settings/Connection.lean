import Strongbox.Binary64
import Strongbox.Settings.Dialect

/-!
# Options of a connection

The query of an address gives options to the driver. They are read before the first connection is made, and an
address with options that cannot be read is refused.
-/

namespace Strongbox.Engine

/-- Reads the values of an option: none, one that `read?` takes, or several, which none of them stands for. -/
def readOption (read? : Text → Option α) : List Text → Except BuildError Unit
  | [] => .ok ()
  | [v] => if (read? v).isSome then .ok () else .error (.fault .badValue)
  | _ => .error (.fault .badType)

def switch? (t : Text) : Option Bool :=
  let name := t.strip.lower
  if (["true", "yes", "on", "y", "t", "1"].map Text.ofString).contains name then some true
  else if (["false", "no", "off", "n", "f", "0"].map Text.ofString).contains name then some false
  else none

/-- The truth value of a switch. One that is given several times is on. -/
def readSwitch : List Text → Except BuildError Bool
  | [] => .ok false
  | [v] =>
    match switch? v with
    | some b => .ok b
    | none => .error (.fault .badValue)
  | _ => .ok true

def embeddedOptions : List String :=
  ["uri", "timeout", "isolation_level", "detect_types", "check_same_thread", "cached_statements"]

/-- An embedded database has neither user nor host. With `uri` the other options become a part of its name, so
there must be one. -/
def checkEmbedded (a : Address) : Except BuildError Unit := do
  if a.user.any (!·.isEmpty) || a.password.any (!·.isEmpty) || a.host.isSome || a.port.any (· != 0) then
    throw .notAnAddress
  let uri ← readSwitch (a.values "uri")
  readOption Binary64.readLoose? (a.values "timeout")
  readOption Text.readInteger? (a.values "detect_types")
  let _ ← readSwitch (a.values "check_same_thread")
  readOption Text.readInteger? (a.values "cached_statements")
  if uri && a.database.isNone && !(a.without embeddedOptions).query.isEmpty then throw (.fault .badType)

structure Hosts where
  hosts : List Text := []
  /-- The texts of the ports; no text where a host has none. -/
  ports : List Text := []
  joined : Bool := false

def isHostPart (c : CodePoint) : Bool :=
  (65 ≤ c && c ≤ 90) || (97 ≤ c && c ≤ 122) || Text.isDigit c || c == 45 || c == 46

def hostAndPort? (t : Text) : Option (Text × Text) :=
  match (t.dropWhile isHostPart) with
  | 58 :: port =>
    let port := if port.getLast? == some 10 then port.dropLast else port
    if port.all fun c => (Text.digit? c).isSome then some (t.takeWhile isHostPart, port) else none
  | _ => none

/-- The hosts that the options name: one option for each with its port, or one for all of them. -/
def readHosts (a : Address) : Except BuildError Hosts :=
  match a.values "host" with
  | [] => .ok {}
  | [v] =>
    let hosts := Text.splitBy (· == 44) v
    match hosts, (a.values "port").isEmpty && v.contains 58 with
    | [host], true =>
      match hostAndPort? host with
      | some (host, port) => .ok { hosts := [host], ports := [port], joined := true }
      | none => .ok { hosts }
    | _, _ => .ok { hosts }
  | several =>
    let fields := several.map fun v => if v.contains 58 then Text.splitBy (· == 58) v else [v, []]
    if fields.all fun f => f.length > 2 then .error (.fault .badValue)
    else .ok { hosts := fields.map (·.headD []), ports := fields.map (·.getD 1 []), joined := true }

/-- The numbers of the ports; those of an option of their own do not go with hosts that have theirs. -/
def readPorts (a : Address) (h : Hosts) : Except BuildError (List (Option Int)) := do
  let texts ← match a.values "port" with
    | [] => pure h.ports
    | given =>
      if h.joined then throw .notAnAddress
      else match given with
        | [v] => pure (Text.splitBy (· == 44) v)
        | several => pure several
  texts.mapM fun t =>
    if t.isEmpty then .ok none
    else match Text.readInteger? t with
      | some n => .ok (some n)
      | none => .error .notAnAddress

/-- The options of a database on hosts. Several hosts need a name and a port each. -/
def checkHosted (a : Address) : Except BuildError Unit := do
  let h ← readHosts a
  let ports ← readPorts a h
  let matching := ports.isEmpty ||
    (if h.hosts.isEmpty then ports.length ≤ 1
      else ports.length = h.hosts.length || (h.hosts.length ≤ 1 && ports.length ≤ 1))
  if !matching then throw .notAnAddress
  if h.hosts.length > 1 && (h.hosts.any List.isEmpty || ports.isEmpty || ports.any (·.getD 0 == 0)) then
    throw .notAnAddress
  readOption Text.readInteger? (a.values "prepared_statement_cache_size")

end Strongbox.Engine

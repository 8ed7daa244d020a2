import Strongbox.Failure
import Strongbox.Schema.Coercion
import Strongbox.Settings.Basic
import Strongbox.Settings.DatabaseUrl
import Strongbox.Settings.Dotenv

/-!
# Loading settings

Values that are given win over the environment, which wins over the settings file. Names are read in
either case. In production the keys of the source text are refused.
-/

namespace Strongbox.Settings

open Schema Checked

inductive LoadError where
  | issues (issues : List Issue)
  | fault (f : Fault)
  deriving DecidableEq, Repr

structure Sources where
  values : List (Text × Json) := []
  environment : List (Text × Json) := []
  file : List (Text × Json) := []

/-- The last value whose name agrees up to case. -/
def named? (name : Text) (members : List (Text × Json)) : Option Json :=
  (members.reverse.find? fun member => member.1.lower == name.lower).map (·.2)

/-- The value of a setting. Among those that are given, one with exactly its name comes first. -/
def setting? (name : String) (s : Sources) : Option Json :=
  let name := Text.ofString name
  ((((Json.lookup? name s.values.reverse).or (named? name s.values)).or
    (named? name s.environment)).or (named? name s.file))

def setting (name : String) (absent : α) (check : Json → Checked α) (s : Sources) : Checked α :=
  match setting? name s with
  | some v => under (.field (Text.ofString name)) (check v)
  | none => .ok absent

def addressValue : Json → Except Fault Text
  | .null => .ok ({} : Settings).databaseUrl
  | .text t => .ok (DatabaseUrl.normalize t)
  | _ => .error .noSuchOperation

def check (address : Text) (m : Sources) : Checked Settings :=
  let d : Settings := {}
  ap (ap (ap (ap (ap (ap (ap (ap (ap (ap (ap (ap (ap (ap (ap (ap
    (Except.map Settings.mk (setting "PROJECT_NAME" d.projectName text m))
    (setting "PROJECT_VERSION" d.projectVersion text m))
    (setting "API_PREFIX" d.apiPrefix text m))
    (setting "ENVIRONMENT" d.environment text m))
    (setting "SECRET_KEY" d.secretKey text m))
    (setting "ALGORITHM" d.algorithm text m))
    (setting "TOKEN_ISSUER" d.tokenIssuer text m))
    (setting "ACCESS_TOKEN_EXPIRE_MINUTES" d.accessTokenExpireMinutes int m))
    (setting "INTEGRITY_HASH_KEY" d.integrityHashKey text m))
    (setting "HASHER_POOL_SIZE" d.hasherPoolSize int m))
    (.ok address))
    (setting "DATABASE_ECHO" d.databaseEcho bool m))
    (setting "CORS_ORIGINS" d.corsOrigins text m))
    (setting "GZIP_MINIMUM_SIZE" d.gzipMinimumSize int m))
    (setting "MAX_INFLATED_BODY_SIZE" d.maxInflatedBodySize int m))
    (setting "REQUEST_TIMEOUT_SECONDS" d.requestTimeoutSeconds real m))
    (setting "LOG_LEVEL" d.logLevel text m)

def isProduction (s : Settings) : Bool := s.environment.lower == Text.ofString "production"

def isSqlite (s : Settings) : Bool := s.databaseUrl.lower.includes (Text.ofString "sqlite")

def allowedOrigins (s : Settings) : List Text :=
  ((Text.splitBy (· == 44) s.corsOrigins).map Text.strip).filter (!·.isEmpty)

/-- The rule that production has keys of its own. -/
def checkKeys (s : Settings) : Checked Settings :=
  if !s.isProduction then .ok s
  else if s.secretKey = insecureSecretKey then .problem (.rule "SECRET_KEY must be set in production")
  else if s.integrityHashKey = insecureIntegrityKey then
    .problem (.rule "INTEGRITY_HASH_KEY must be set in production")
  else .ok s

def ofSources (s : Sources) : Except LoadError Settings :=
  match (setting? "DATABASE_URL" s).map addressValue with
  | some (.error f) => .error (.fault f)
  | address =>
    let address := match address with
      | some (.ok t) => t
      | _ => ({} : Settings).databaseUrl
    match (check address s).bind checkKeys with
    | .ok s => .ok s
    | .error issues => .error (.issues issues)

/-- The values in a settings file. Names that differ in letter case alone are one name; the last of them
counts, also if it has no value. -/
def fileValues (environment : List (Text × Text)) (file : Text) : List (Text × Json) :=
  (Keyed.collect ((Dotenv.parse environment file).map fun (name, value) => (name.lower, value))).filterMap
    fun (name, value) => value.map fun v => (name, .text v)

def load (values : List (Text × Json)) (environment : List (Text × Text)) (file : Text) :
    Except LoadError Settings :=
  ofSources ⟨values, environment.map fun (name, value) => (name, .text value), fileValues environment file⟩

end Strongbox.Settings

import Strongbox.Clock
import Strongbox.Schema.Body

/-!
# Claims of a token

The claims are checked one after the other, and the first that fails decides the answer. A token that
expired is told apart only if everything before the expiry is in order.
-/

namespace Strongbox.Token

def refuse : Outcome α := Outcome.reject (.rejected .invalidToken)

def claimInt : Json → Outcome Int
  | .int n => .ok n
  | .bool b => .ok (if b then 1 else 0)
  | .text t =>
    match t.readInteger? with
    | some n => .ok n
    | none => refuse
  | .real x =>
    match x with
    | .nan => refuse
    | .infinite _ => Outcome.fail .overflow
    | x =>
      match x.truncate? with
      | some n => .ok n
      | none => refuse
  | .null => Outcome.fail .badType
  | .array _ => Outcome.fail .badType
  | .object _ => Outcome.fail .badType

/-- What the rest of the program needs to know to check claims. -/
structure Rules where
  issuer : Text
  now : Int

abbrev ClaimSet := List (Text × Json)

def claim? (name : String) (claims : ClaimSet) : Option Json := Json.lookup? (Text.ofString name) claims

def checkPresent (claims : ClaimSet) : Outcome Unit :=
  if ["exp", "iss", "sub"].all fun name => (claim? name claims).isSome then .ok () else refuse

/-- The time of issue is an integer, whatever it is. -/
def checkIssuedAt (claims : ClaimSet) : Outcome Unit :=
  match claim? "iat" claims with
  | none => .ok ()
  | some v => (claimInt v).map fun _ => ()

def checkNotBefore (r : Rules) (claims : ClaimSet) : Outcome Unit :=
  match claim? "nbf" claims with
  | none => .ok ()
  | some v => do
    let start ← claimInt v
    let now ← Clock.second r.now
    if start > now then refuse else .ok ()

def checkExpiry (r : Rules) (claims : ClaimSet) : Outcome Unit :=
  match claim? "exp" claims with
  | none => .ok ()
  | some v => do
    let stop ← claimInt v
    let now ← Clock.second r.now
    if stop < now then Outcome.reject (.rejected .expiredToken) else .ok ()

/-- Tokens that name an audience are for someone else. -/
def checkAudience (claims : ClaimSet) : Outcome Unit :=
  match claim? "aud" claims with
  | none => .ok ()
  | some _ => refuse

def checkIssuer (r : Rules) (claims : ClaimSet) : Outcome Unit :=
  match claim? "iss" claims with
  | some (.text t) => if t = r.issuer then .ok () else refuse
  | _ => refuse

def checkText (name : String) (claims : ClaimSet) : Outcome Unit :=
  match claim? name claims with
  | none => .ok ()
  | some (.text _) => .ok ()
  | some _ => refuse

/-- Tokens that are bound to an access token are not served. -/
def checkUnbound (claims : ClaimSet) : Outcome Unit :=
  match claim? "at_hash" claims with
  | none => .ok ()
  | some _ => refuse

def checkClaims (r : Rules) (claims : ClaimSet) : Outcome Unit := do
  checkPresent claims
  checkIssuedAt claims
  checkNotBefore r claims
  checkExpiry r claims
  checkAudience claims
  checkIssuer r claims
  checkText "sub" claims
  checkText "jti" claims
  checkUnbound claims

def isUserId (n : Int) : Bool := 0 < n && n < 0x8000000000000000

def userOf (claims : ClaimSet) : Outcome Int :=
  match Claims.check (.object claims) with
  | .error _ => refuse
  | .ok checked =>
    match checked.subject.bind Text.readInteger? with
    | none => refuse
    | some n => if isUserId n then .ok n else refuse

end Strongbox.Token

import Strongbox.Clock
import Strongbox.Json.Printer
import Strongbox.Settings.Basic
import Strongbox.Token.Algorithm
import Strongbox.Token.Claims
import Strongbox.Token.Compact
import Strongbox.Token.Header
import Strongbox.Token.Key

/-!
# Access tokens

Issuing signs the issuer, the user, and the times of issue and expiry. Verifying checks form, algorithm,
signature and claims, and gives back the user.
-/

namespace Strongbox.Token

def microsPerSecond : Int := 1000000

def microsPerMinute : Int := 60000000

def newClaims (issuer : Text) (userId issuedAt expiresAt : Int) : Json :=
  Json.record [("iss", .text issuer), ("sub", .text (Text.ofInt userId)), ("iat", .int issuedAt),
    ("exp", .int expiresAt)]

def newHeader (a : Algorithm) : Json :=
  Json.record [("alg", .text a.name), ("typ", .text (Text.ofString "JWT"))]

def sign (a : Algorithm) (key : Bytes) (claims : Json) : Text :=
  let signed := Compact.signedText (newHeader a).toAscii.asciiBytes claims.toAscii.asciiBytes
  Compact.assemble signed (a.code key signed.asciiBytes)

/-- A new token for a user, valid for a lifetime in microseconds from now on. -/
def issueFor (s : Settings) (now lifetime userId : Int) : Outcome Text := do
  let start ← Clock.second now
  let expiry ← Clock.after now lifetime
  match Algorithm.ofName? s.algorithm, keyOfText s.secretKey with
  | some a, .ok key => .ok (sign a key (newClaims s.tokenIssuer userId start (expiry / microsPerSecond)))
  | _, _ => Outcome.fail .unsignable

def issue (s : Settings) (now userId : Int) : Outcome Text :=
  issueFor s now (s.accessTokenExpireMinutes * microsPerMinute) userId

def bytesOf (part : Text) : Outcome Bytes :=
  match Base64.decodeUrl? part with
  | some bytes => .ok bytes
  | none => refuse

def membersOf (bytes : Bytes) : Outcome ClaimSet :=
  match Utf8.decode? bytes with
  | none => refuse
  | some t =>
    match Json.parse .lenient t with
    | .ok (.object members) => .ok members
    | .error .tooDeep => Outcome.fail .tooDeep
    | _ => refuse

def checkAlgorithm (s : Settings) (header : ClaimSet) : Outcome Unit :=
  match claim? "alg" header with
  | some (.text name) => if name ≠ [] ∧ name = s.algorithm then .ok () else refuse
  | _ => refuse

/-- Does one of the values sign the bytes so? Nothing is a key for an unknown algorithm. -/
def anySigns (a : Option Algorithm) (signed signature : Bytes) (values : List Json) : Except Fault Bool :=
  match a with
  | some a => anyKey (fun key => a.code key signed == signature) values
  | none => if values.isEmpty then .ok false else .error .badKey

def checkSignature (s : Settings) (signed signature : Bytes) : Outcome Unit :=
  match (candidates s.secretKey).bind (anySigns (Algorithm.ofName? s.algorithm) signed signature) with
  | .error f => Outcome.fail f
  | .ok true => .ok ()
  | .ok false => refuse

/-- The user of a token. The header is read before the other parts are decoded. -/
def verify (s : Settings) (now : Int) (text : Text) : Outcome Int :=
  match Utf8.encode? text with
  | none => Outcome.fail .unencodable
  | some bytes =>
    match Compact.ofBytes? bytes with
    | none => refuse
    | some token => do
      let header ← membersOf (← bytesOf token.header)
      let payload ← bytesOf token.payload
      let signature ← bytesOf token.signature
      checkAlgorithm s header
      checkSignature s token.signed signature
      let claims ← membersOf payload
      checkClaims ⟨s.tokenIssuer, now⟩ claims
      userOf claims

def authenticate (s : Settings) (now : Int) (header : Option Text) : Outcome Int := do
  let token ← ofHeader header
  verify s now token

end Strongbox.Token

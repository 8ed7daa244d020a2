import Strongbox.Encoding.Base64
import Strongbox.Failure
import Strongbox.Json.Parser

/-!
# Keys of tokens

A token is signed under the text of the key. For verification the text is first read as JSON: a key set, a
single key, a list or another object give the keys to try; anything else is the key itself.
-/

namespace Strongbox.Token

def armored : List String :=
  ["CERTIFICATE", "TRUSTED CERTIFICATE", "PRIVATE KEY", "PUBLIC KEY", "ENCRYPTED PRIVATE KEY",
    "OPENSSH PRIVATE KEY", "DSA PRIVATE KEY", "RSA PRIVATE KEY", "RSA PUBLIC KEY", "EC PRIVATE KEY",
    "DH PARAMETERS", "NEW CERTIFICATE REQUEST", "CERTIFICATE REQUEST", "SSH2 PUBLIC KEY",
    "SSH2 ENCRYPTED PRIVATE KEY", "X509 CRL"]

/-- The lines that such files begin with; the dash next to the words may be a blank. -/
def armorLines : List Text :=
  armored.flatMap fun name => [45, 32].flatMap fun (first : CodePoint) => [45, 32].map fun (last : CodePoint) =>
    Text.ofString "----" ++ [first] ++ Text.ofString ("BEGIN " ++ name) ++ [last] ++ Text.ofString "----"

def shellKinds : List Text :=
  ["ssh-ed25519", "ssh-rsa", "ssh-dss", "ecdsa-sha2-nistp256", "ecdsa-sha2-nistp384",
    "ecdsa-sha2-nistp521"].map Text.ofString

/-- A word that ends like the kind of a certificate for remote shells, blanks, and the start of another
word. -/
def isShellCertificate (t : Text) : Bool :=
  let isSpace (c : CodePoint) : Bool := c == 32 || (9 ≤ c && c ≤ 13)
  let kind := t.takeWhile (!isSpace ·)
  let gap := (t.dropWhile (!isSpace ·)).takeWhile fun c => c == 32 || c == 9
  Text.startsWith kind.reverse (Text.ofString "-cert-v01@openssh.com").reverse && !gap.isEmpty &&
    match t.drop (kind.length + gap.length) with
    | [] => false
    | c :: _ => !isSpace c

/-- Keys of public methods and certificates, which must never serve as shared secrets. -/
def isPublicKind (t : Text) : Bool :=
  armorLines.any t.includes || shellKinds.any t.includes || isShellCertificate t

def keyOfText (t : Text) : Except Fault Bytes :=
  match Utf8.encode? t with
  | none => .error .unencodable
  | some bytes => if isPublicKind t then .error .badKey else .ok bytes

def keyOfMembers (members : List (Text × Json)) : Except Fault Bytes :=
  match Json.lookup? (Text.ofString "kty") members with
  | some (.text kind) =>
    if kind = Text.ofString "oct" then
      match Json.lookup? (Text.ofString "k") members with
      | some (.text k) =>
        match Utf8.encode? k with
        | none => .error .unencodable
        | some bytes =>
          match Base64.decodeUrl? (bytes.map UInt8.toNat) with
          | some key => .ok key
          | none => .error .badPadding
      | _ => .error .noSuchOperation
    else .error .badKey
  | _ => .error .badKey

def keyOfJson : Json → Except Fault Bytes
  | .text t => keyOfText t
  | .object members => keyOfMembers members
  | _ => .error .badKey

def candidatesIn : Json → Except Fault (List Json)
  | .array items => .ok items
  | .object members => .ok (members.map fun (name, _) => .text name)
  | .text t => .ok (t.map fun c => .text [c])
  | _ => .error .badType

/-- Numbers in a key keep their text. -/
def keyDialect : Json.Dialect := { loneSurrogates := true, depthLimit := 960, numbersAsText := true }

def candidates (key : Text) : Except Fault (List Json) :=
  match Json.parse keyDialect key with
  | .error _ => .ok [.text key]
  | .ok (.object members) =>
    match Json.lookup? (Text.ofString "keys") members with
    | some keys => candidatesIn keys
    | none =>
      if (Json.lookup? (Text.ofString "kty") members).isSome || members.isEmpty then
        .ok [.object members]
      else .ok (members.map (·.2))
  | .ok (.array items) => .ok items
  | .ok v => .ok [v]

/-- Does one of the keys satisfy the test? A key that cannot be used stops the search. -/
def anyKey (test : Bytes → Bool) : List Json → Except Fault Bool
  | [] => .ok false
  | v :: rest =>
    match keyOfJson v with
    | .error f => .error f
    | .ok key => if test key then .ok true else anyKey test rest

end Strongbox.Token

import Strongbox.Digest.Pbkdf2
import Strongbox.Encoding.Base64
import Strongbox.Failure
import Strongbox.Text.Digit
import Strongbox.Text.Utf8

/-!
# Password hashes

A hash names its scheme, the number of rounds, the salt and the derived key, with dollar signs between
them. Verifying derives the key again and compares.
-/

namespace Strongbox.Password

def mark : Text := Text.ofString "$pbkdf2-sha256$"

def lengthLimit : Nat := 4096

def defaultRounds : Nat := 29000

/-- Bytes in base64 without padding, with a point for the plus sign. -/
def encodeField (bytes : Bytes) : Text := Base64.encodeWith 46 47 bytes

def decodeField (t : Text) : Except Fault Bytes :=
  if t.any (128 ≤ ·) then .error .unencodable
  else if t.length % 4 = 1 then .error .badValue
  else
    let padded := t ++ List.replicate ((4 - t.length % 4) % 4) 61
    match Base64.decode? (padded.map fun c => if c = 46 then 43 else c) with
    | some bytes => .ok bytes
    | none => .error .badType

structure Hash where
  rounds : Int
  salt : Bytes
  digest : Option Bytes
  deriving DecidableEq, Repr

def readRounds (t : Text) : Except Fault Int :=
  match t with
  | [] => .error .badValue
  | 48 :: _ :: _ => .error .badValue
  | t =>
    match t.readInteger? with
    | some n => .ok n
    | none => .error .badValue

def readDigest (t : Text) : Except Fault (Option Bytes) :=
  if t.isEmpty then .ok none else (decodeField t).map some

def readParts (t : Text) : Except Fault Hash :=
  match Text.splitBy (· == 36) t with
  | [rounds, salt, digest] => do
    let rounds ← readRounds rounds
    let salt ← decodeField salt
    let digest ← readDigest digest
    pure ⟨rounds, salt, digest⟩
  | [rounds, salt] => do
    let rounds ← readRounds rounds
    let salt ← decodeField salt
    pure ⟨rounds, salt, none⟩
  | _ => .error .badValue

def Hash.acceptable (h : Hash) : Bool :=
  1 ≤ h.rounds && h.rounds < 0x100000000 && h.salt.length ≤ 1024 && h.digest.all (·.length == 32)

def write (rounds : Nat) (salt digest : Bytes) : Text :=
  mark ++ Text.ofNat rounds ++ 36 :: encodeField salt ++ 36 :: encodeField digest

def hash (salt : Bytes) (password : Text) : Outcome Text :=
  if password.length > lengthLimit then Outcome.fail .longPassword
  else match Utf8.encode? password with
    | none => Outcome.fail .unencodable
    | some bytes => .ok (write defaultRounds salt (Pbkdf2.derive bytes salt defaultRounds))

def matchesKey (password : Text) (h : Hash) (digest : Bytes) : Outcome Bool :=
  match Utf8.encode? password with
  | none => Outcome.fail .unencodable
  | some bytes => .ok (Pbkdf2.derive bytes h.salt h.rounds.toNat == digest)

def verify (password hash : Text) : Outcome Bool :=
  match Text.dropLead? mark hash with
  | none => Outcome.fail .unknownHash
  | some parts =>
    if password.length > lengthLimit then Outcome.fail .longPassword
    else match readParts parts with
      | .error f => Outcome.fail f
      | .ok h =>
        match h.digest with
        | none => Outcome.fail .badValue
        | some digest => if h.acceptable then matchesKey password h digest else Outcome.fail .badValue

end Strongbox.Password

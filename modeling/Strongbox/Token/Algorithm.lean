import Strongbox.Digest.Hmac

/-!
# Algorithms of tokens

The algorithms that sign and verify with a shared secret. Those with a pair of keys, which ask for a secret
in armor or for a key object, are left out.
-/

namespace Strongbox.Token

inductive Algorithm where
  | hs256
  | hs384
  | hs512
  deriving DecidableEq, Repr

namespace Algorithm

def all : List Algorithm := [hs256, hs384, hs512]

def name : Algorithm → Text
  | hs256 => Text.ofString "HS256"
  | hs384 => Text.ofString "HS384"
  | hs512 => Text.ofString "HS512"

def ofName? (name : Text) : Option Algorithm := all.find? fun a => a.name = name

theorem ofName?_name (a : Algorithm) : ofName? a.name = some a := by
  cases a with
  | hs256 => decide
  | hs384 => decide
  | hs512 => decide

theorem name_of_ofName? {name : Text} {a : Algorithm} (h : ofName? name = some a) : a.name = name := by
  simpa using List.find?_some h

theorem name_filled (a : Algorithm) : a.name ≠ [] := by
  cases a with
  | hs256 => decide
  | hs384 => decide
  | hs512 => decide

def code : Algorithm → (key message : Bytes) → Bytes
  | hs256 => Hmac.code .sha256
  | hs384 => Hmac.code .sha384
  | hs512 => Hmac.code .sha512

end Algorithm

end Strongbox.Token

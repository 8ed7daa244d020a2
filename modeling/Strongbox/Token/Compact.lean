import Strongbox.Encoding.Base64
import Strongbox.Text.Utf8

/-!
# Signed tokens in compact form

Header, payload and signature in base64, with points between them. The signature covers the text before
the last point as it was sent.
-/

namespace Strongbox.Token

structure Compact where
  signed : Bytes
  header : Text
  payload : Text
  signature : Text
  deriving DecidableEq, Repr

namespace Compact

def widen (bytes : Bytes) : Text := bytes.map UInt8.toNat

def ofBytes? (token : Bytes) : Option Compact := do
  let (signed, signature) ← Text.cutLast? 46 (widen token)
  let (header, payload) ← Text.cutFirst? 46 signed
  pure ⟨signed.map Nat.toUInt8, header, payload, signature⟩

def signedText (header payload : Bytes) : Text :=
  Base64.encodeUrl header ++ 46 :: Base64.encodeUrl payload

def assemble (signed : Text) (signature : Bytes) : Text := signed ++ 46 :: Base64.encodeUrl signature

end Compact

end Strongbox.Token

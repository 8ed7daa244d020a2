import Strongbox.Failure
import Strongbox.Text.Blank

/-!
# The authorization header

The token is the second of the pieces between single spaces, trimmed; the piece before it, the scheme, is not looked
at. Where fields stand further apart this is not the second field.
-/

namespace Strongbox.Token

def ofHeader (header : Option Text) : Outcome Text :=
  match header with
  | none => Outcome.reject (.rejected .missingHeader)
  | some [] => Outcome.reject (.rejected .missingHeader)
  | some value =>
    match Text.splitBy (· == 32) value with
    | _ :: field :: _ =>
      let token := field.strip
      if token.isEmpty then Outcome.reject (.rejected .emptyToken) else .ok token
    | _ => Outcome.reject (.rejected .malformedHeader)

end Strongbox.Token

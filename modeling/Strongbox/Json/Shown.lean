import Strongbox.Json.Basic
import Strongbox.Text.Quoted

/-!
# Values as they are shown to people

Text stands for itself. Inside of other values it is quoted; arrays and objects have a blank after every
comma and colon.
-/

namespace Strongbox.Json

mutual

def quoted : Json → Text
  | .null => Text.ofString "None"
  | .bool b => Text.ofString (if b then "True" else "False")
  | .int n => Text.ofInt n
  | .real x => x.toText
  | .text t => t.quoted
  | .array items => 91 :: quotedItems items ++ [93]
  | .object members => 123 :: quotedMembers members ++ [125]

def quotedItems : List Json → Text
  | [] => []
  | [v] => quoted v
  | v :: w :: rest => quoted v ++ [44, 32] ++ quotedItems (w :: rest)

def quotedMembers : List (Text × Json) → Text
  | [] => []
  | [(name, v)] => name.quoted ++ [58, 32] ++ quoted v
  | (name, v) :: m :: rest =>
    name.quoted ++ [58, 32] ++ quoted v ++ [44, 32] ++ quotedMembers (m :: rest)

end

def shown : Json → Text
  | .text t => t
  | v => quoted v

end Strongbox.Json

import Strongbox.Binary64
import Strongbox.Keyed

/-!
# JSON values

The members of an object are a list that is keyed by their names.
-/

namespace Strongbox

inductive Json where
  | null
  | bool (b : Bool)
  | int (n : Int)
  | real (x : Binary64)
  | text (t : Text)
  | array (items : List Json)
  | object (members : List (Text × Json))
  deriving Repr, Inhabited

namespace Json

instance : Coe Text Json := ⟨.text⟩

def ofMembers (members : List (Text × Json)) : Json := .object (Keyed.collect members)

def lookup? (name : Text) (members : List (Text × α)) : Option α := (Keyed.find? name members).map (·.2)

def member? (v : Json) (name : Text) : Option Json :=
  match v with
  | .object members => lookup? name members
  | _ => none

def isTruthy : Json → Bool
  | .null => false
  | .bool b => b
  | .int n => n != 0
  | .real (.finite _ mantissa _) => mantissa != 0
  | .real _ => true
  | .text t => !t.isEmpty
  | .array items => !items.isEmpty
  | .object members => !members.isEmpty

end Json

end Strongbox

/-!
# Keyed lists

Entries that each have a key stand in the order in which their keys came first. When a key comes again the last
entry counts, at the first place.
-/

namespace Strongbox

class Keyed (α : Type) (κ : outParam Type) where
  key : α → κ

namespace Keyed

variable {α κ : Type} [Keyed α κ] [DecidableEq κ]

instance {β : Type} : Keyed (κ × β) κ := ⟨Prod.fst⟩

/-- Puts an entry in place if its key is there, at the end otherwise. -/
@[specialize] def put (entry : α) : List α → List α
  | [] => [entry]
  | other :: rest => if key other = key entry then entry :: rest else other :: put entry rest

@[specialize] def collect (entries : List α) : List α :=
  entries.foldl (fun known entry => put entry known) []

@[specialize] def find? (k : κ) (entries : List α) : Option α := entries.find? fun entry => key entry == k

end Keyed

end Strongbox

import Strongbox.Text.Blank

/-!
# Database addresses

Addresses are trimmed, and those of the two supported databases are moved to their asynchronous drivers.
-/

namespace Strongbox.DatabaseUrl

def replaceLead? (lead replacement : String) (url : Text) : Option Text :=
  (Text.dropLead? (Text.ofString lead) url).map (Text.ofString replacement ++ ·)

def normalize (address : Text) : Text :=
  let url := address.strip
  match replaceLead? "postgres://" "postgresql+asyncpg://" url with
  | some moved => moved
  | none =>
    match replaceLead? "postgresql://" "postgresql+asyncpg://" url with
    | some moved => if url.includes (Text.ofString "+asyncpg") then url else moved
    | none =>
      match replaceLead? "sqlite:///" "sqlite+aiosqlite:///" url with
      | some moved => if url.includes (Text.ofString "+aiosqlite") then url else moved
      | none => url

end Strongbox.DatabaseUrl

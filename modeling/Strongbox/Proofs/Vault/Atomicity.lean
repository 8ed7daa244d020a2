import Strongbox.Proofs.Vault.Effects

/-!
# All or nothing

A batch may fail at any of its items and any of its statements: by a check, by the store, or because it was
stopped. It then leaves the tables as they were. Otherwise all of its deeds were done, and no other record
was touched.
-/

namespace Strongbox.Vault

open Store

def Deed.spare (deeds : List Deed) (r : Record) : Bool := deeds.all fun d => !d.isOf r.userId r.recordId

end Strongbox.Vault

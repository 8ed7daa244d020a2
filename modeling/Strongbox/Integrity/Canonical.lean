import Strongbox.Failure
import Strongbox.Json.Printer
import Strongbox.Schema.Item

/-!
# The authenticated form of a batch

The items as compact JSON, members in their fixed order, in UTF-8.
-/

namespace Strongbox.Integrity

/-- The bytes that the hash of a batch covers. -/
def canonical? (items : List Json) : Option Bytes := Utf8.encode? (Json.array items).toText

def uploadForm? (items : List NewRecord) : Option Bytes := canonical? (items.map NewRecord.toJson)

def updateForm? (items : List Revision) : Option Bytes := canonical? (items.map Revision.toJson)

end Strongbox.Integrity

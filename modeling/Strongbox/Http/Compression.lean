import Strongbox.Http.Request

/-!
# Compressed responses

A body that is large enough depends on what the client accepts. Responses hold their body as it is before it
is compressed; the header says that it will be.
-/

namespace Strongbox.Http

def acceptsGzip (headers : Headers) : Bool :=
  ((header? "accept-encoding" headers).getD []).includes (Text.ofString "gzip")

/-- The response with a body that is compressed if it has at least `minimum` bytes and the client accepts
that. -/
def compressed (minimum : Int) (headers : Headers) (r : Response) : Response :=
  if minimum ≤ r.body.length then
    let r := r.varying "Accept-Encoding"
    if acceptsGzip headers then r.withHeader "content-encoding" (Text.ofString "gzip") else r
  else r

end Strongbox.Http

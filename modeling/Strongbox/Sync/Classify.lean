import Strongbox.Schema.Body

/-!
# Comparing two sets of descriptors

Every record that needs work is put into one bucket. Nothing is merged: the side with the higher version
wins, and at equal versions a deletion wins over a live copy.
-/

namespace Strongbox.Sync

inductive Bucket where
  | download
  | upload
  | update
  | deleteClient
  | deleteServer
  deriving DecidableEq, Repr

instance : Keyed Descriptor Text := ⟨Descriptor.recordId⟩

open Keyed

def classifyBoth (server client : Descriptor) : Option (Bucket × Descriptor) :=
  if server.version = client.version then
    if server.deleted then
      if client.deleted then none else some (.deleteClient, server)
    else if client.deleted then some (.deleteServer, client)
    else if server.hash ≠ client.hash then some (.update, client)
    else none
  else if server.version > client.version then
    some (if server.deleted then .deleteClient else .download, server)
  else some (if client.deleted then .deleteServer else .update, client)

def classifyServer (clients : List Descriptor) (server : Descriptor) : Option (Bucket × Descriptor) :=
  match find? server.recordId clients with
  | none => if server.deleted then none else some (.download, server)
  | some client => classifyBoth server client

def classifyClient (servers : List Descriptor) (client : Descriptor) : Option (Bucket × Descriptor) :=
  if (find? client.recordId servers).isSome || client.deleted then none else some (.upload, client)

/-- All work, that of the server's records first. -/
def assignments (servers clients : List Descriptor) : List (Bucket × Descriptor) :=
  servers.filterMap (classifyServer clients) ++ clients.filterMap (classifyClient servers)

def inBucket (b : Bucket) (work : List (Bucket × Descriptor)) : List Descriptor :=
  work.filterMap fun (bucket, d) => if bucket = b then some d else none

def plan (servers clients : List Descriptor) : Plan :=
  let work := assignments (collect servers) (collect clients)
  { download := inBucket .download work
    upload := inBucket .upload work
    update := inBucket .update work
    deleteClient := inBucket .deleteClient work
    deleteServer := inBucket .deleteServer work }

end Strongbox.Sync

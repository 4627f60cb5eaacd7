import OrderDesk.Packet.Basic
import OrderDesk.Registry.Directory

/-!
# Snapshots

A snapshot is the whole contents of a registry in one packet. A node answers a
request with snapshots and takes a snapshot in place of what its own registry
of that id holds.
-/

namespace OrderDesk

def Registry.response (r : Registry) : ResponseData := ⟨r.id, r.snapshot⟩

namespace Directory

def answer (d : Directory) (request : RequestData) : Except RegistryError (List ResponseData) :=
  if request.registryId = RegistryId.all then .ok (d.registries.map Registry.response)
  else (fun r => [r.response]) <$> d.require request.registryId

def load (d : Directory) (snapshot : ResponseData) : Except RegistryError Directory := do
  let r ← d.require snapshot.registryId
  d.set <$> r.replaceEntities snapshot.entities

def upsert (d : Directory) (registryId : String) (e : Entity) : Except RegistryError Directory := do
  let r ← d.require registryId
  d.set <$> r.upsertEntity e

end Directory

end OrderDesk

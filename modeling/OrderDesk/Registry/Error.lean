import OrderDesk.Entity

/-!
# What a registry refuses
-/

namespace OrderDesk

inductive RegistryError
  | frozen (registryId : String)
  | typeMismatch (registryId : String) (expected found : EntityKind)
  | unknownRegistry (registryId : String)
  | duplicateRegistry (registryId : String)
  deriving DecidableEq, Repr

def RegistryError.message : RegistryError → String
  | frozen id => "registry " ++ id ++ " is frozen"
  | typeMismatch id expected found => "registry " ++ id ++ " holds " ++ expected.name ++ ", got " ++ found.name
  | unknownRegistry id => "unknown registry: " ++ id
  | duplicateRegistry id => "registry id already taken: " ++ id

end OrderDesk

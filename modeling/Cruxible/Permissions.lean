/-!
# Permission tiers

`PermissionMode` of `runtime/permissions.py`, whose values are ordered.
-/
namespace Cruxible.Permissions

inductive PermissionMode where
  | readOnly
  | governedWrite
  | graphWrite
  | admin
  deriving DecidableEq, Repr

def PermissionMode.level : PermissionMode → Nat
  | .readOnly => 1
  | .governedWrite => 2
  | .graphWrite => 3
  | .admin => 4

def PermissionMode.name : PermissionMode → String
  | .readOnly => "READ_ONLY"
  | .governedWrite => "GOVERNED_WRITE"
  | .graphWrite => "GRAPH_WRITE"
  | .admin => "ADMIN"

end Cruxible.Permissions

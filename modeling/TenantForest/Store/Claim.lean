import TenantForest.Store.Basic

/-!
# Name claims

A write that gives a unit a name carries a claim on that name: the name, the scope in
which it must be unique, and optionally the unit being renamed or moved, which does not
count against itself. The claim is taken when an active unit matches it.
-/

namespace TenantForest

/-- Where a claimed name must be unique. -/
inductive NameScope where
  /-- Across every tenant. -/
  | global
  /-- Within one tenant. -/
  | tenant (t : Ident)
  /-- Among the children of `parent` (the roots when `none`) of tenant `t`. -/
  | siblings (t : Ident) (parent : Option Ident)
  deriving DecidableEq, Repr, Inhabited

/-- A claim on a name. -/
structure NameClaim where
  /-- The exact name. -/
  name : String
  /-- Where it must be unique. -/
  scope : NameScope
  /-- The unit that does not count against the claim. -/
  exclude : Option Ident := none
  deriving DecidableEq, Repr, Inhabited

namespace NameClaim

/-- Whether the unit `e` holds the claimed name in the claimed scope (its state is the
caller's concern). -/
def heldBy (q : NameClaim) (e : Entity) : Bool :=
  e.name == q.name && q.exclude != some e.id &&
    match q.scope with
    | .global => true
    | .tenant t => e.tenant == t
    | .siblings t parent => e.tenant == t && e.parent == parent

end NameClaim

namespace Store

/-- Whether an active unit holds the claimed name. -/
def nameInUse (s : Store) (q : NameClaim) : Bool :=
  s.entities.any (fun e => e.isActive && q.heldBy e)

/-- Refuses a claim that an active unit already holds. -/
def checkClaim (s : Store) : Option NameClaim → Except Fault Unit
  | some q => if s.nameInUse q then .error (.claimTaken q.name) else .ok ()
  | none => .ok ()

end Store

end TenantForest

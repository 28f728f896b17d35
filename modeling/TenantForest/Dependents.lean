import TenantForest.Ident

/-!
# Dependents

Records outside the forest (members, say) may point at a unit; a unit with active
dependents cannot be retired. The forest consults a table of counts keyed by tenant and
unit. Setting a count of zero removes the entry, and a missing entry counts as zero.
-/

namespace TenantForest

/-- Counts of active dependents, keyed by (tenant, unit). -/
structure Dependents where
  /-- The non-zero counts, at most one per key. -/
  counts : List ((Ident × Ident) × Nat) := []
  deriving Repr, Inhabited

namespace Dependents

/-- The number of active dependents of unit `id` in tenant `t`. -/
def count (d : Dependents) (t id : Ident) : Nat :=
  match d.counts.find? (fun entry => entry.1 == (t, id)) with
  | some entry => entry.2
  | none => 0

/-- The table with the count of unit `id` in tenant `t` set to `n`. -/
def set (d : Dependents) (t id : Ident) (n : Nat) : Dependents :=
  let rest := d.counts.filter (fun entry => entry.1 != (t, id))
  if n = 0 then ⟨rest⟩ else ⟨((t, id), n) :: rest⟩

end Dependents

end TenantForest

import TenantForest.Forest.Create
import TenantForest.Forest.Rename
import TenantForest.Forest.Move
import TenantForest.Forest.Remove
import TenantForest.View.Outline
import TenantForest.View.Integrity

/-!
# Requests and replies

Everything a tenant can ask of a forest is a `Request`; a `Call` is a request made on
behalf of a tenant and, optionally, of an acting user. `Forest.handle` carries a call out
in place, and `Forest.serve` answers it with a `Reply` and the forest as it stands
afterwards, or refuses it with a `Fault`. Every call makes its checks before its one
write, so a refused call leaves the forest as it was.

Reads (`get`, `children`, `list`, `hierarchy`, `tree`, `ancestors`, `stats`, `verify`)
answer from the forest and hand it back unchanged. `create`, `rename`, `move` and
`remove` write to the store; `setDependents` writes to the dependents table and is
never refused.
-/

namespace TenantForest

/-- What a tenant can ask of a forest. -/
inductive Request where
  /-- Store a new unit. -/
  | create (r : CreateRequest)
  /-- One active unit. -/
  | get (id : Ident)
  /-- A page of the active units passing a filter, in path order. -/
  | list (filter : Filter) (page : PageRequest)
  /-- The active children of a unit, in insertion order. -/
  | children (id : Ident)
  /-- Give a unit a new name. -/
  | rename (id : Ident) (name : String)
  /-- Put a unit under a new parent, or make it a root. -/
  | move (id : Ident) (parent : Option Ident)
  /-- Retire a unit. -/
  | remove (id : Ident)
  /-- Every active unit in hierarchy order, down to a level when given. -/
  | hierarchy (maxDepth : Option Int)
  /-- The active units as nested outlines, down to a level when given. -/
  | tree (maxDepth : Option Int)
  /-- A unit and its ancestors, root first. -/
  | ancestors (id : Ident)
  /-- Figures about the active units. -/
  | stats
  /-- The integrity problems of the active units. -/
  | verify
  /-- Record how many active dependents a unit has. -/
  | setDependents (id : Ident) (count : Nat)

/-- A request on behalf of a tenant and, optionally, of an acting user. -/
structure Call where
  /-- The tenant addressed. -/
  tenant : Ident
  /-- The acting user; `none` acts as the system. -/
  actor : Option Ident := none
  /-- What is asked. -/
  request : Request

/-- What a forest answers. -/
inductive Reply where
  /-- One unit: the unit read, stored or changed. -/
  | unit (e : Entity)
  /-- Several units, in the order the request defines. -/
  | units (es : List Entity)
  /-- A page of units. -/
  | page (p : Page Entity)
  /-- Nested outlines. -/
  | outline (trees : List Outline)
  /-- Figures. -/
  | stats (s : Stats)
  /-- Integrity problems. -/
  | issues (found : List Issue)
  /-- Done, with nothing to report. -/
  | done

namespace Forest

/-- A read answered from the forest as it stands, which it leaves as it is. -/
def answer {α : Type} (r : Forest → Except Fault α) (reply : α → Reply) :
    InPlace Forest Reply := do
  let a ← InPlace.check (r (← getThe Forest))
  pure (reply a)

/-- Handles a call in place: the reply, or the fault that refused the call, together with
the forest as the call leaves it. -/
def handle (c : Call) : InPlace Forest Reply :=
  let t := c.tenant
  match c.request with
  | .create r => Reply.unit <$> create t c.actor r
  | .get id => answer (·.get t id) .unit
  | .list filter page => answer (·.list t filter page) .page
  | .children id => answer (·.children t id) .units
  | .rename id name => Reply.unit <$> rename t c.actor id name
  | .move id parent => Reply.unit <$> move t c.actor id parent
  | .remove id => Reply.unit <$> remove t c.actor id
  | .hierarchy maxDepth => answer (·.hierarchy t maxDepth) .units
  | .tree maxDepth => answer (·.outline t maxDepth) .outline
  | .ancestors id => answer (·.ancestors t id) .units
  | .stats => answer (fun f => .ok (f.stats t)) .stats
  | .verify => answer (fun f => .ok (f.verify t)) .issues
  | .setDependents id n => do
    modify (·.setDependents t id n)
    pure .done

/-- Answers a call: the reply and the forest afterwards, or the fault that refused it. -/
def serve (f : Forest) (c : Call) : Except Fault (Reply × Forest) :=
  match (handle c).run f with
  | .ok r f' => .ok (r, f')
  | .error e _ => .error e

/-- The forest after a call, answered or refused. -/
def after (f : Forest) (c : Call) : Forest :=
  match (handle c).run f with
  | .ok _ f' => f'
  | .error _ f' => f'

/-- The reply to a call, or the fault that refused it. -/
def reply (f : Forest) (c : Call) : Except Fault Reply :=
  (f.serve c).map Prod.fst

end Forest

end TenantForest

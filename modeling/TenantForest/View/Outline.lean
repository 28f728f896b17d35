import TenantForest.Forest.Query

/-!
# The nested view

`Forest.outline` nests a tenant's units: each unit with its children inside it. It
reads the units in hierarchy order and keeps a stack of open units, the ancestors of
the next unit, innermost on top. Before a unit is opened, open units are closed until
the top is the unit's parent; a closed unit is appended to the children of the unit
below it, or to the roots when none is below. A unit whose parent is not open therefore
becomes a root of the view. `Outline.flatten` reads the units back in pre-order.
-/

namespace TenantForest

/-- A unit with the units nested inside it. -/
inductive Outline where
  | node (unit : Entity) (children : List Outline)
  deriving Repr, Inhabited

namespace Outline

/-- The unit at the top of the outline. -/
def unit : Outline → Entity
  | .node u _ => u

/-- The outline with one more child at the end. -/
def adopt : Outline → Outline → Outline
  | .node u cs, child => .node u (cs ++ [child])

/-- Closes open units until the top is the unit `parent` (or none is left open); a
closed unit joins the unit below it, or the roots. -/
def closeUntil (parent : Option Ident) : List Outline → List Outline → List Outline × List Outline
  | [], roots => ([], roots)
  | [top], roots => if some top.unit.id == parent then ([top], roots) else ([], roots ++ [top])
  | top :: below :: rest, roots =>
    if some top.unit.id == parent then (top :: below :: rest, roots)
    else closeUntil parent (below.adopt top :: rest) roots
termination_by openUnits => openUnits.length

/-- Closes every open unit. -/
def closeAll : List Outline → List Outline → List Outline
  | [], roots => roots
  | [top], roots => roots ++ [top]
  | top :: below :: rest, roots => closeAll (below.adopt top :: rest) roots
termination_by openUnits => openUnits.length

/-- Nests units given in hierarchy order, with the open units and the roots so far. -/
def build (openUnits roots : List Outline) : List Entity → List Outline
  | [] => closeAll openUnits roots
  | e :: es =>
    let (openUnits', roots') := closeUntil e.parent openUnits roots
    build (.node e [] :: openUnits') roots' es

/-- The units of a list of outlines in pre-order: each unit, then the units nested in it,
then the next outline. -/
def flatten : List Outline → List Entity
  | [] => []
  | .node u cs :: rest => u :: flatten cs ++ flatten rest

end Outline

namespace Forest

/-- The nested view of tenant `t`, down to level `maxDepth` when given. -/
def outline (f : Forest) (t : Ident) (maxDepth : Option Int) : Except Fault (List Outline) :=
  (f.hierarchy t maxDepth).map (Outline.build [] [])

end Forest

end TenantForest

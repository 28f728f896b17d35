import TenantForest.Document
import TenantForest.Kind

/-!
# Units

A unit of the forest (an `Entity`) belongs to one tenant for its whole life. It has a
name, a kind, an optional parent, and two derived fields: its materialised `path`, the
names from its root down to itself joined by the separator, and its `level`, the number
of its ancestors. Metadata is free-form. The `version` is raised by every write, so a
write computed from an older reading can be refused. The creating and the last writing
actor are recorded.

The times of creation and of the last write, which a store stamps from its clock, are left
out: no operation here reads them, and there is no clock. A statement that a write changes
no other field of a unit speaks of the fields below.

A `Draft` is a unit before it is stored: everything but the identifier, the state and
the version, which the store assigns (active, version 1, last writer = creator).

An `Edit` describes a write: each field is either left alone (`none`) or replaced.
Setting the parent to `some none` makes the unit a root. The last writer is replaced
only when an actor is given, so maintenance writes leave it as it was.
-/

namespace TenantForest

/-- A stored unit. -/
structure Entity where
  /-- The unit's identifier. -/
  id : Ident
  /-- The owning tenant; never changes. -/
  tenant : Ident
  /-- The display name, the last segment of the path. -/
  name : String
  /-- What the unit is. -/
  kind : Kind
  /-- The parent, `none` for a root. -/
  parent : Option Ident
  /-- The names from the root down to the unit, joined by the separator. -/
  path : String
  /-- The number of ancestors; roots are level 0. -/
  level : Int
  /-- Free-form metadata, an object. -/
  metadata : Document
  /-- Active or retired. -/
  state : Lifecycle
  /-- Raised by every write. -/
  version : Int
  /-- Who created the unit. -/
  createdBy : Option Ident
  /-- Who wrote the unit last. -/
  updatedBy : Option Ident
  deriving Repr, Inhabited

namespace Entity

/-- Whether the unit is a root. -/
def isRoot (e : Entity) : Bool := e.parent.isNone

/-- Whether the unit is active. -/
def isActive (e : Entity) : Bool := e.state.isActive

/-- Whether the unit is an active unit of tenant `t`. -/
def activeIn (t : Ident) (e : Entity) : Bool := e.tenant == t && e.isActive

end Entity

/-- A unit as handed to the store, before it has an identifier. -/
structure Draft where
  /-- The owning tenant. -/
  tenant : Ident
  /-- The (already trimmed) name. -/
  name : String
  /-- What the unit is. -/
  kind : Kind
  /-- The parent, `none` for a root. -/
  parent : Option Ident
  /-- The path derived from the parent. -/
  path : String
  /-- The level derived from the parent. -/
  level : Int
  /-- The metadata object. -/
  metadata : Document
  /-- The creating actor. -/
  createdBy : Option Ident
  deriving Repr, Inhabited

/-- The unit a draft becomes under identifier `id`: active, version 1, last written by
its creator. -/
def Draft.settle (d : Draft) (id : Ident) : Entity :=
  { id := id, tenant := d.tenant, name := d.name, kind := d.kind, parent := d.parent,
    path := d.path, level := d.level, metadata := d.metadata, state := .active,
    version := 1, createdBy := d.createdBy, updatedBy := d.createdBy }

/-- The fields a write replaces; `none` leaves a field as it is. -/
structure Edit where
  /-- A new name. -/
  name : Option String := none
  /-- A new parent; `some none` makes the unit a root. -/
  parent : Option (Option Ident) := none
  /-- A new path. -/
  path : Option String := none
  /-- A new level. -/
  level : Option Int := none
  /-- New metadata. -/
  metadata : Option Document := none
  /-- A new state. -/
  state : Option Lifecycle := none
  /-- The writing actor; recorded only when given. -/
  updatedBy : Option Ident := none
  deriving Repr, Inhabited

/-- The unit with the edit's fields replaced. The version is the store's business. -/
def Edit.apply (c : Edit) (e : Entity) : Entity :=
  { e with
    name := c.name.getD e.name
    parent := c.parent.getD e.parent
    path := c.path.getD e.path
    level := c.level.getD e.level
    metadata := c.metadata.getD e.metadata
    state := c.state.getD e.state
    updatedBy := if c.updatedBy.isSome then c.updatedBy else e.updatedBy }

/-- A new place for one descendant: the path and level derived for it, from its version
`expected`. -/
structure Placement where
  /-- The descendant. -/
  id : Ident
  /-- The version the new values were derived from. -/
  expected : Int
  /-- The re-derived path. -/
  path : String
  /-- The re-derived level. -/
  level : Int
  deriving Repr, Inhabited

/-- A structural write: an edit of one unit (the head) and the new placements of its
descendants that the edit implies, applied together or not at all. -/
structure Change where
  /-- The tenant every touched unit must belong to. -/
  tenant : Ident
  /-- The head unit. -/
  id : Ident
  /-- The version the edit was computed from. -/
  expected : Int
  /-- The fields the head gets. -/
  edit : Edit
  /-- New paths and levels of descendants, parents first. -/
  cascade : List Placement := []
  deriving Repr, Inhabited

end TenantForest

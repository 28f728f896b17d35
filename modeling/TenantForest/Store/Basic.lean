import TenantForest.Entity

/-!
# The store

The store keeps every unit ever stored, retired ones included, in the order they were
stored, together with the number of identifiers it has handed out. Insertion order is
the stored order of siblings; identifiers come from `Ident.serial` and are never reused.

Every read is scoped by tenant: asking for a unit of another tenant gives the same answer
as asking for one that does not exist. Only `Store.locate` tells which tenant owns an
active unit, and it tells nothing else.
-/

namespace TenantForest

/-- All units ever stored, in insertion order, and the count of identifiers issued. -/
structure Store where
  /-- Every stored unit, retired ones included, oldest first. -/
  entities : List Entity := []
  /-- How many identifiers have been handed out. -/
  issued : Nat := 0
  deriving Repr, Inhabited

namespace Store

/-- The empty store. -/
def empty : Store := {}

/-- The unit with identifier `id`, in any state and tenant. -/
def find? (s : Store) (id : Ident) : Option Entity :=
  s.entities.find? (fun e => e.id == id)

/-- The unit with identifier `id` when it is an active unit of tenant `t`. -/
def active? (s : Store) (id t : Ident) : Option Entity :=
  (s.find? id).filter (Entity.activeIn t)

/-- The active unit `id` of tenant `t`, or `unitMissing`. -/
def getActive (s : Store) (id t : Ident) : Except Fault Entity :=
  match s.active? id t with
  | some e => .ok e
  | none => .error (.unitMissing id)

/-- The tenant owning the active unit `id`, if there is one. -/
def locate (s : Store) (id : Ident) : Option Ident :=
  ((s.find? id).filter Entity.isActive).map Entity.tenant

/-- The active units of tenant `t`, in insertion order. -/
def activeOf (s : Store) (t : Ident) : List Entity :=
  s.entities.filter (Entity.activeIn t)

/-- Whether `e` is a child of the unit `id`. -/
def isChildOf (id : Ident) (e : Entity) : Bool := e.parent == some id

/-- The units of `pool` that are children of `id`, and the others, each in the order of
`pool`. -/
def splitChildren (id : Ident) (pool : List Entity) : List Entity × List Entity :=
  (pool.filter (isChildOf id), pool.filter (fun e => !isChildOf id e))

/-- Splitting off the children loses no unit. -/
theorem splitChildren_length (id : Ident) (pool : List Entity) :
    (splitChildren id pool).1.length + (splitChildren id pool).2.length = pool.length := by
  induction pool with
  | nil => rfl
  | cons a l ih =>
    simp only [splitChildren] at ih ⊢
    cases h : isChildOf id a <;> simp [h] <;> omega

/-- The active children of `id` in tenant `t`, in insertion order. -/
def childrenOf (s : Store) (id t : Ident) : List Entity :=
  (s.activeOf t).filter (isChildOf id)

/-- The number of active children of `id` in tenant `t`. -/
def countChildren (s : Store) (id t : Ident) : Nat :=
  (s.childrenOf id t).length

/-- The store with `f` applied to the unit `id` (to every unit with that identifier). -/
def modify (s : Store) (id : Ident) (f : Entity → Entity) : Store :=
  { s with entities := s.entities.map (fun e => if e.id == id then f e else e) }

/-- The lookup after `modify`: when `f` keeps identifiers, the unit found for `x` is the
one found before, with `f` applied when it is the modified unit. -/
theorem find?_modify {s : Store} {id x : Ident} {f : Entity → Entity}
    (hf : ∀ e, (f e).id = e.id) :
    (s.modify id f).find? x = (s.find? x).map (fun e => if e.id = id then f e else e) := by
  simp only [modify, find?]
  induction s.entities with
  | nil => rfl
  | cons e es ih =>
    by_cases h1 : e.id = id <;> by_cases h2 : e.id = x <;> simp_all

/-- The modified unit is found with `f` applied. -/
theorem find?_modify_self {s : Store} {id : Ident} {f : Entity → Entity} {e : Entity}
    (hf : ∀ e, (f e).id = e.id) (h : s.find? id = some e) :
    (s.modify id f).find? id = some (f e) := by
  have he : e.id = id := by
    simpa using List.find?_some h
  rw [find?_modify hf, h]
  simp [he]

/-- Every other identifier is found as before. -/
theorem find?_modify_of_ne {s : Store} {id x : Ident} {f : Entity → Entity}
    (hf : ∀ e, (f e).id = e.id) (hx : x ≠ id) :
    (s.modify id f).find? x = s.find? x := by
  rw [find?_modify hf]
  cases h : s.find? x with
  | none => rfl
  | some e =>
    have he : e.id = x := by
      simpa using List.find?_some h
    simp [he, hx]

/-- `modify` hands out no identifier. -/
@[simp] theorem issued_modify (s : Store) (id : Ident) (f : Entity → Entity) :
    (s.modify id f).issued = s.issued := rfl

/-- Overwrites the path and level of the unit `id`, whatever its state and tenant,
without raising its version: the way drifted data is reproduced. -/
def forcePath (s : Store) (id : Ident) (path : String) (level : Int) : Store :=
  s.modify id (fun e => { e with path := path, level := level })

end Store

end TenantForest

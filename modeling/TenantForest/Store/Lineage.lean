import TenantForest.Store.Basic

/-!
# Lineage

Climbing parent links through the active units of one tenant.

* `Store.ParentLink s t x p`: `x` is an active unit of tenant `t` whose parent link
  names `p`. Nothing is said about `p`: it may be retired, of another tenant, or absent.
* `Store.Descends s t x a`: climbing from `x` through active units of `t` arrives at
  `a`, that is `x`'s parent is `a`, or is an active unit of `t` that descends from `a`.
* `Store.RootPath s t x chain`: the climb from `x` passes only through active units of
  `t` and ends at a root; `chain` lists the units passed, `x` first and the root last.

A unit has one parent link, so the climb from a unit is determined. A climb that runs
into a cycle never ends, and then the units it arrives at are those on the cycle and
before it; a climb that ends at a root ends nowhere else.
-/

namespace TenantForest

namespace Store

/-- `x` is an active unit of tenant `t` whose parent link names `p`. -/
def ParentLink (s : Store) (t x p : Ident) : Prop :=
  ∃ e, s.active? x t = some e ∧ e.parent = some p

/-- Climbing parent links from `x` through active units of tenant `t` arrives at `a`. -/
inductive Descends (s : Store) (t : Ident) : Ident → Ident → Prop
  /-- The parent link of `x` names `a`. -/
  | parent {x a : Ident} : s.ParentLink t x a → Descends s t x a
  /-- The parent link of `x` names a unit that descends from `a`. -/
  | climb {x p a : Ident} : s.ParentLink t x p → Descends s t p a → Descends s t x a

/-- The climb from `x` through active units of tenant `t` ends at a root, passing the
units of `chain` in order, `x` first. -/
inductive RootPath (s : Store) (t : Ident) : Ident → List Entity → Prop
  /-- `x` is an active root. -/
  | root {x : Ident} {e : Entity} : s.active? x t = some e → e.parent = none →
      RootPath s t x [e]
  /-- `x` is active, and the climb from its parent ends at a root. -/
  | climb {x p : Ident} {e : Entity} {chain : List Entity} : s.active? x t = some e →
      e.parent = some p → RootPath s t p chain → RootPath s t x (e :: chain)

end Store

end TenantForest

import TenantForest.Path
import TenantForest.Store.Write
import TenantForest.Dependents

/-!
# Forests

A `Forest` is the store together with the dependent counts and the settings it runs
under. Its operations enforce the rules of the hierarchy on top of the store's plain
writes: names are validated and trimmed, paths and levels are derived from the parent,
levels stay within the maximum depth, names stay unique under the naming policy, and a
unit never becomes its own ancestor.

Every operation is addressed to a tenant and done on behalf of an actor, or of nobody
(maintenance work, which leaves the last writer of a unit unchanged).

The writes of the forest run in place (`InPlace Forest`): each reads the forest as it
stands, makes its checks, and hands its one write to the store with `onStore`.

This module holds what the operations share: resolving a prospective parent, the name
claim for the configured policy, and running a store write on the forest's store.
-/

namespace TenantForest

/-- The store, the dependent counts and the settings of a forest. -/
structure Forest where
  /-- The settings the forest runs under. -/
  settings : Settings := {}
  /-- The units. -/
  store : Store := {}
  /-- The dependent counts. -/
  dependents : Dependents := {}
  deriving Repr, Inhabited

namespace Forest

/-- An empty forest under the given settings. -/
def empty (settings : Settings) : Forest := { settings := settings }

/-- The active unit `p` of tenant `t` as a parent; a unit of another tenant is reported
as such, anything else as a missing parent. -/
def resolveParent (f : Forest) (p t : Ident) : Except Fault Entity :=
  match f.store.active? p t with
  | some parent => .ok parent
  | none =>
    match f.store.locate p with
    | some owner => if owner != t then .error (.parentElsewhere p) else .error (.parentMissing p)
    | none => .error (.parentMissing p)

/-- The claim on `name` for a unit of tenant `t` under `parent`, excluding `exclude`,
as the naming policy asks; no claim under the policy `none`. -/
def claimFor (f : Forest) (name : String) (t : Ident) (parent : Option Ident)
    (exclude : Option Ident) : Option NameClaim :=
  match f.settings.policy with
  | .global => some ⟨name, .global, exclude⟩
  | .tenant => some ⟨name, .tenant t, exclude⟩
  | .siblings => some ⟨name, .siblings t parent, exclude⟩
  | .none => none

/-- Refuses a claim already held, naming the policy in the fault. -/
def ensureAvailable (f : Forest) : Option NameClaim → Except Fault Unit
  | some q =>
    if f.store.nameInUse q then .error (.nameTaken q.name f.settings.policy.name) else .ok ()
  | none => .ok ()

/-- The forest with another store. -/
def withStore (f : Forest) (s : Store) : Forest := { f with store := s }

/-- Runs a write of the store on the forest's store; the forest keeps whatever the store
is left with, refused or not. -/
def onStore {α : Type} (m : InPlace Store α) : InPlace Forest α := do
  let f ← getThe Forest
  match m.run f.store with
  | .ok a s => set (f.withStore s); pure a
  | .error e s => set (f.withStore s); throw e

end Forest

end TenantForest

import TenantForest.Store.Claim

/-!
# Writing to the store

The store writes in place: a write reads and changes the store as it goes, and when it
refuses, the store stays as it stands at that point, with whatever was written before
the refusal. `InPlace σ` is the kind of such computations over a state `σ`; a refusal
carries the state it leaves behind.

The store has two writes, and each makes all of its checks before its first write.

* `insert` checks the name claim and that the parent is an active unit of the same
  tenant, then stores the draft under the next serial identifier.
* `commit` applies a `Change`: it checks the claim, then the head, then every cascade
  row in order (each must be an active unit of the change's tenant carrying the expected
  version), and only when all checks pass writes the cascade rows in order, looks the
  head up again and edits it. Every written row has its version raised by one.

`update` is a commit with no cascade and no claim.
-/

namespace TenantForest

/-- Computations that read and write a state of type `σ` in place and may be refused with
a fault; a refusal leaves the state as it stands at that point. -/
abbrev InPlace (σ : Type) := EStateM Fault σ

namespace InPlace

/-- The value of a check that reads and writes nothing, or its refusal. -/
def check {σ α : Type} : Except Fault α → InPlace σ α
  | .ok a => pure a
  | .error e => throw e

variable {σ α β : Type}

/-- A check that passes hands on its value and leaves the state. -/
@[simp] theorem run_check_ok (a : α) (s : σ) : (check (.ok a) : InPlace σ α).run s = .ok a s :=
  rfl

/-- A check that fails refuses with its fault and leaves the state. -/
@[simp] theorem run_check_error (e : Fault) (s : σ) :
    (check (.error e) : InPlace σ α).run s = .error e s := rfl

/-- A check that passes hands its value to the rest of the computation. -/
theorem check_ok_bind (a : α) (k : α → InPlace σ β) : check (.ok a) >>= k = k a := rfl

/-- A check that fails refuses before the rest of the computation. -/
theorem check_error_bind (e : Fault) (k : α → InPlace σ β) : check (.error e) >>= k = throw e :=
  rfl

/-- A value handed on leaves the state as it is. -/
@[simp] theorem run_pure (a : α) (s : σ) : (pure a : InPlace σ α).run s = .ok a s := rfl

/-- Reading the state hands it on and leaves it. -/
@[simp] theorem run_getThe (s : σ) : (getThe σ : InPlace σ σ).run s = .ok s s := rfl

/-- Setting the state always succeeds. -/
@[simp] theorem run_set (s₁ s₂ : σ) : (set s₁ : InPlace σ PUnit).run s₂ = .ok ⟨⟩ s₁ := rfl

/-- A refusal leaves the state as it is. -/
@[simp] theorem run_throw (e : Fault) (s : σ) : (throw e : InPlace σ α).run s = .error e s :=
  rfl

/-- A named-state update always succeeds. -/
@[simp] theorem run_modifyThe (f : σ → σ) (s : σ) :
    (modifyThe σ f : InPlace σ PUnit).run s = .ok ⟨⟩ (f s) := rfl

/-- Mapping the value changes neither the state nor a refusal. -/
@[simp] theorem run_map (f : α → β) (m : InPlace σ α) (s : σ) :
    (f <$> m).run s = match m.run s with
      | .ok a s' => .ok (f a) s'
      | .error e s' => .error e s' := by
  simp only [EStateM.run, Functor.map, EStateM.map]
  cases m s <;> rfl

end InPlace

/-- The unit with a cascade row's path and level and its version raised. -/
def Placement.apply (r : Placement) (e : Entity) : Entity :=
  { e with path := r.path, level := r.level, version := e.version + 1 }

/-- A cascade row keeps the unit's identifier. -/
@[simp] theorem Placement.id_apply (r : Placement) (e : Entity) : (r.apply e).id = e.id := rfl

namespace Store

/-- The draft stored under the next serial identifier, with no checks. -/
def place (s : Store) (d : Draft) : Entity × Store :=
  let e := d.settle (Ident.serial (s.issued + 1))
  (e, { entities := s.entities ++ [e], issued := s.issued + 1 })

/-- Placing a draft appends it, settled under the next serial identifier. -/
@[simp] theorem entities_place (s : Store) (d : Draft) :
    (s.place d).2.entities = s.entities ++ [d.settle (Ident.serial (s.issued + 1))] := rfl

/-- Placing a draft hands out one identifier. -/
@[simp] theorem issued_place (s : Store) (d : Draft) : (s.place d).2.issued = s.issued + 1 :=
  rfl

/-- The checks of an insert: the claim is free, and the parent, if any, is an active unit
of the draft's tenant. -/
def allows (s : Store) (d : Draft) (claim : Option NameClaim) : Except Fault Unit := do
  s.checkClaim claim
  if let some p := d.parent then
    if (s.active? p d.tenant).isNone then throw (.parentMissing p)

/-- Stores the draft as a new active unit under the next serial identifier, once the
checks pass; a refused insert draws no identifier. -/
def insert (d : Draft) (claim : Option NameClaim) : InPlace Store Entity := do
  InPlace.check ((← getThe Store).allows d claim)
  modifyGet (·.place d)

/-- Checks that `id` is an active unit of tenant `t` at version `expected`. -/
def checkVersion (s : Store) (id t : Ident) (expected : Int) : Except Fault Unit :=
  match s.active? id t with
  | none => .error (.unitMissing id)
  | some e => if e.version == expected then .ok () else .error (.staleVersion id)

/-- Checks every cascade row, in order. -/
def checkRows (s : Store) (t : Ident) : List Placement → Except Fault Unit
  | [] => .ok ()
  | r :: rs =>
    match s.checkVersion r.id t r.expected with
    | .error e => .error e
    | .ok () => s.checkRows t rs

/-- The checks of a commit, in order: the claim, the head, then every cascade row. -/
def vet (s : Store) (c : Change) (claim : Option NameClaim) : Except Fault Unit := do
  s.checkClaim claim
  s.checkVersion c.id c.tenant c.expected
  s.checkRows c.tenant c.cascade

/-- The store with the cascade rows written in order. -/
def writeRows (s : Store) : List Placement → Store
  | [] => s
  | r :: rs => (s.modify r.id r.apply).writeRows rs

/-- The unit with an edit applied and its version raised. -/
def stamp (c : Edit) (e : Entity) : Entity :=
  { c.apply e with version := e.version + 1 }

/-- An edit keeps the unit's identifier. -/
@[simp] theorem id_stamp (c : Edit) (e : Entity) : (stamp c e).id = e.id := rfl

/-- Applies a change all or nothing, returning the edited head. -/
def commit (c : Change) (claim : Option NameClaim) : InPlace Store Entity := do
  InPlace.check ((← getThe Store).vet c claim)
  modifyThe Store (·.writeRows c.cascade)
  let some head := (← getThe Store).find? c.id | throw (.unitMissing c.id)
  modifyThe Store (·.modify c.id (stamp c.edit))
  pure (stamp c.edit head)

/-- Edits one unit at the expected version, with no cascade and no claim. -/
def update (t id : Ident) (expected : Int) (c : Edit) : InPlace Store Entity :=
  commit { tenant := t, id := id, expected := expected, edit := c } none

end Store

end TenantForest

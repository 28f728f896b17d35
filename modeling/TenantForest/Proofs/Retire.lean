import TenantForest.Proofs.Commit

/-!
# When a unit can be retired

Removing a unit retires it: the unit becomes inactive and stays in the store as a tombstone. In
a keyed store, and so in every reachable forest, a removal of `x` in tenant `t` is decided by
three facts about the forest, in this order:

* `x` is no active unit of `t`: the removal is refused as missing, its only refusal of the
  not-found kind;
* `x` has an active child in `t`, or the dependents table counts dependents of `x` in `t`: it is
  refused because dependents exist, the children counted first;
* otherwise it succeeds and retires `x` alone: `x` becomes inactive, its version is raised by
  one and the actor is recorded when there is one, while every other unit, the order of the
  units, the identifier counter, the dependents and the settings stay as they were.

Two guards never fire. An active unit can always be retired, so the check of the change of
state passes; and the update is made at the version just read, so its version check passes.

Main statement: `remove_decided_by_dependents`.
-/

namespace TenantForest

namespace Store

variable {s : Store} {t x : Ident}

/-- A unit has an active child exactly when an active unit of the tenant names it as parent. -/
theorem countChildren_pos_iff :
    0 < s.countChildren x t ↔ ∃ c ∈ s.entities, c.activeIn t = true ∧ c.parent = some x := by
  simp only [countChildren, childrenOf, activeOf, isChildOf, List.length_pos_iff_exists_mem,
    List.filter_filter, List.mem_filter, Bool.and_eq_true, beq_iff_eq]
  constructor <;> rintro ⟨c, hc, h₁, h₂⟩ <;> exact ⟨c, hc, h₂, h₁⟩

/-- Retiring a unit makes it inactive, raises its version and records the actor when there is
one; nothing else changes. -/
theorem stamp_retire (actor : Option Ident) (X : Entity) :
    stamp { state := some .inactive, updatedBy := actor } X =
      { X with state := .inactive, version := X.version + 1,
               updatedBy := if actor.isSome then actor else X.updatedBy } := rfl

/-- In a keyed store, an update of the active unit `x` of `t` at its own version succeeds and
writes `x` alone. -/
theorem update_run_of_active (hk : s.Keyed) {X : Entity} (hX : s.active? x t = some X)
    (c : Edit) :
    (Store.update t x X.version c).run s =
      .ok (stamp c X)
        { s with entities := s.entities.map fun e => if e.id = x then stamp c X else e } := by
  have hv : s.vet ⟨t, x, X.version, c, []⟩ none = .ok () :=
    vet_ok_iff.2 ⟨rfl, ⟨X, hX, rfl⟩, by simp⟩
  obtain ⟨hXm, hXid, -, -⟩ := mem_of_active? hX
  rw [Store.update, commit_run_of_vet (by simp) (by simp) hv (Option.eq_some_of_filter_eq_some hX)]
  -- the one unit with identifier `x` is `X`
  have hmap : s.entities.map (Change.written ⟨t, x, X.version, c, []⟩) =
      s.entities.map fun e => if e.id = x then stamp c X else e := by
    refine List.map_congr_left fun e he => ?_
    by_cases hex : e.id = x
    · rw [hk.eq_of_id_eq he hXm (hex.trans hXid.symm)]
      simp [Change.written, hXid]
    · simp [Change.written, hex]
  rw [hmap]

end Store

namespace Forest

open Store

variable {f : Forest}

/-- The run of a removal in a keyed store: the unit is missing, or has active children, or has
dependents, or it is retired alone. -/
theorem remove_run (hk : f.store.Keyed) (t : Ident) (actor : Option Ident) (x : Ident) :
    (remove t actor x).run f =
      match f.store.active? x t with
      | none => .error (.unitMissing x) f
      | some X =>
        if 0 < f.store.countChildren x t then
          .error (.hasChildren X.path (f.store.countChildren x t)) f
        else if 0 < f.dependents.count t x then
          .error (.hasDependents X.path (f.dependents.count t x)) f
        else
          .ok (stamp { state := some .inactive, updatedBy := actor } X)
            (f.withStore { f.store with
              entities := f.store.entities.map fun e =>
                if e.id = x then stamp { state := some .inactive, updatedBy := actor } X
                else e }) := by
  unfold remove
  rw [InPlace.run_getThe_bind]
  cases hX : f.store.active? x t with
  | none =>
    rw [show f.store.getActive x t = .error (.unitMissing x) by simp [getActive, hX],
      InPlace.check_error_bind, InPlace.run_throw]
  | some X =>
    rw [show f.store.getActive x t = .ok X by simp [getActive, hX], InPlace.check_ok_bind]
    -- an active unit can always be retired
    have hstate : X.state.canBecome .inactive = true := by
      have hact := (mem_of_active? hX).2.2.2
      cases hs : X.state <;> simp_all [Entity.isActive, Lifecycle.isActive, Lifecycle.canBecome]
    dsimp only
    split
    · rfl
    split
    · rfl
    rw [if_neg (by simp [hstate])]
    exact onStore_ok.2 ⟨_, update_run_of_active hk hX _, rfl⟩

/-- A removal is refused as not found exactly when the unit is no active unit of the tenant. -/
theorem remove_notFound_iff (hk : f.store.Keyed) (t : Ident) (actor : Option Ident) (x : Ident) :
    (∃ e f', (remove t actor x).run f = .error e f' ∧ e.category = .notFound) ↔
      f.store.active? x t = none := by
  have hrun := remove_run hk t actor x
  cases hX : f.store.active? x t with
  | none =>
    rw [hX] at hrun
    exact ⟨fun _ => rfl, fun _ => ⟨_, _, hrun, rfl⟩⟩
  | some X =>
    rw [hX] at hrun
    simp only at hrun
    refine ⟨?_, nofun⟩
    -- an active unit is never refused as missing
    rintro ⟨e, f', h, hcat⟩
    rw [hrun] at h
    split at h
    · cases h
      cases hcat
    split at h
    · cases h
      cases hcat
    · cases h

/-- A removal is refused because dependents exist exactly when the unit is an active unit of the
tenant with active children or a dependent count, the children counted first. -/
theorem remove_dependentsExist_iff (hk : f.store.Keyed) (t : Ident) (actor : Option Ident)
    (x : Ident) :
    (∃ e f', (remove t actor x).run f = .error e f' ∧ e.category = .dependentsExist) ↔
      (f.store.active? x t).isSome ∧
        (0 < f.store.countChildren x t ∨ 0 < f.dependents.count t x) := by
  have hrun := remove_run hk t actor x
  cases hX : f.store.active? x t with
  | none =>
    rw [hX] at hrun
    refine ⟨?_, fun h => by simp at h⟩
    rintro ⟨e, f', h, hcat⟩
    rw [hrun] at h
    cases h
    cases hcat
  | some X =>
    rw [hX] at hrun
    simp only at hrun
    constructor
    · rintro ⟨e, f', h, -⟩
      rw [hrun] at h
      refine ⟨rfl, ?_⟩
      split at h
      · exact .inl ‹_›
      split at h
      · exact .inr ‹_›
      · cases h
    · rintro ⟨-, hdep⟩
      rw [hrun]
      split
      · exact ⟨_, _, rfl, rfl⟩
      rw [if_pos (hdep.resolve_left ‹_›)]
      exact ⟨_, _, rfl, rfl⟩

/-- A removal of an active unit with no active child and no dependents retires the unit alone. -/
theorem remove_run_of_free (hk : f.store.Keyed) {t x : Ident} {X : Entity}
    (hX : f.store.active? x t = some X) (hchild : ¬ 0 < f.store.countChildren x t)
    (hcount : f.dependents.count t x = 0) (actor : Option Ident) :
    (remove t actor x).run f =
      .ok { X with state := .inactive, version := X.version + 1,
                   updatedBy := if actor.isSome then actor else X.updatedBy }
        { f with
          store := { f.store with
            entities := f.store.entities.map fun e =>
              if e.id = x then
                { X with state := .inactive, version := X.version + 1,
                         updatedBy := if actor.isSome then actor else X.updatedBy }
              else e } } := by
  rw [remove_run hk t actor x, hX]
  simp only
  rw [if_neg hchild, if_neg (by omega), stamp_retire]
  rfl

/-- **A removal is decided by the unit's children and dependents.** In a reachable forest, a
removal of `x` in tenant `t`:

* is refused as not found exactly when `x` is no active unit of `t`;
* is refused because dependents exist exactly when `x` is an active unit of `t` with an active
  child in `t`, or with a dependent count other than zero;
* otherwise succeeds, and retires `x` alone: `x` becomes inactive with its version raised by
  one and the actor recorded when there is one, and every other unit, their order, the
  identifier counter, the dependents and the settings stay as they were. -/
theorem remove_decided_by_dependents {st : Settings} (hf : Reachable st f) (t : Ident)
    (actor : Option Ident) (x : Ident) :
    ((∃ e f', (remove t actor x).run f = .error e f' ∧ e.category = .notFound) ↔
        f.store.active? x t = none) ∧
      ((∃ e f', (remove t actor x).run f = .error e f' ∧ e.category = .dependentsExist) ↔
        (f.store.active? x t).isSome ∧
          ((∃ c ∈ f.store.entities, c.activeIn t = true ∧ c.parent = some x) ∨
            f.dependents.count t x ≠ 0)) ∧
      ∀ X, f.store.active? x t = some X →
        (¬ ∃ c ∈ f.store.entities, c.activeIn t = true ∧ c.parent = some x) →
        f.dependents.count t x = 0 →
        (remove t actor x).run f =
          .ok { X with state := .inactive, version := X.version + 1,
                       updatedBy := if actor.isSome then actor else X.updatedBy }
            { f with
              store := { f.store with
                entities := f.store.entities.map fun e =>
                  if e.id = x then
                    { X with state := .inactive, version := X.version + 1,
                             updatedBy := if actor.isSome then actor else X.updatedBy }
                  else e } } := by
  rw [← countChildren_pos_iff, ← Nat.pos_iff_ne_zero]
  exact ⟨remove_notFound_iff hf.keyed t actor x, remove_dependentsExist_iff hf.keyed t actor x,
    fun X hX hchild hcount => remove_run_of_free hf.keyed hX hchild hcount actor⟩

/-- Retiring `Sales`, a leaf of the forest of `Acme` and `Sales`, is decided by its children and
dependents. -/
theorem sales_removal_decided_by_dependents :
    Reachable {} acmeSalesForest ∧
      ((∃ e f', (remove (Ident.ofNat 7) none (Ident.serial 2)).run acmeSalesForest = .error e f' ∧
          e.category = .notFound) ↔
        acmeSalesForest.store.active? (Ident.serial 2) (Ident.ofNat 7) = none) ∧
      ((∃ e f', (remove (Ident.ofNat 7) none (Ident.serial 2)).run acmeSalesForest = .error e f' ∧
          e.category = .dependentsExist) ↔
        (acmeSalesForest.store.active? (Ident.serial 2) (Ident.ofNat 7)).isSome ∧
          ((∃ c ∈ acmeSalesForest.store.entities, c.activeIn (Ident.ofNat 7) = true ∧
              c.parent = some (Ident.serial 2)) ∨
            acmeSalesForest.dependents.count (Ident.ofNat 7) (Ident.serial 2) ≠ 0)) ∧
      ∀ X, acmeSalesForest.store.active? (Ident.serial 2) (Ident.ofNat 7) = some X →
        (¬ ∃ c ∈ acmeSalesForest.store.entities, c.activeIn (Ident.ofNat 7) = true ∧
          c.parent = some (Ident.serial 2)) →
        acmeSalesForest.dependents.count (Ident.ofNat 7) (Ident.serial 2) = 0 →
        (remove (Ident.ofNat 7) none (Ident.serial 2)).run acmeSalesForest =
          .ok { X with state := .inactive, version := X.version + 1,
                       updatedBy := if (none : Option Ident).isSome then none else X.updatedBy }
            { acmeSalesForest with
              store := { acmeSalesForest.store with
                entities := acmeSalesForest.store.entities.map fun e =>
                  if e.id = Ident.serial 2 then
                    { X with state := .inactive, version := X.version + 1,
                             updatedBy := if (none : Option Ident).isSome then none
                               else X.updatedBy }
                  else e } } :=
  have hreach : Reachable {} acmeSalesForest := .after _ (.after _ .empty)
  ⟨hreach, remove_decided_by_dependents hreach (Ident.ofNat 7) none (Ident.serial 2)⟩

end Forest

end TenantForest

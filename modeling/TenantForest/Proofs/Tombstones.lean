import TenantForest.Proofs.Shape

/-!
# Retired units stay retired

Units are never deleted: removing a unit retires it, and the retired unit stays in the store
as a tombstone. Nothing written to a forest brings a tombstone back or changes it, except an
overwrite of its path and level:

* a store insert appends a unit under an identifier no stored unit has;
* a store commit checks that its head and every cascade row name an active unit before it
  writes anything, so it writes active units only; a commit whose head is retired is refused,
  whatever its edit carries, a change of state back to active included;
* an overwrite of a path and a level changes those two fields and nothing else;
* a call to the service writes, if at all, by one insert or one commit, and a refused action
  writes nothing.

Main statement: `retired_units_stay_retired`. From any keyed forest (every forest that calls
and store writes reach from the empty one is keyed, `keyed_next`), along any run of actions, a
retired unit is found retired in every later state, with every field as it was but its path and
level, and exactly as it was when the run overwrites no path; and every commit with it as its
head is refused and leaves the store as it was.

  §1 What an action writes — the store after an action, and keying kept.
  §2 One action — a retired unit survives each kind of write.
  §3 Runs.
-/

namespace TenantForest

/-- `e'` is `e` with at most its path and its level overwritten. -/
def Entity.Repathed (e e' : Entity) : Prop :=
  e' = { e with path := e'.path, level := e'.level }

namespace Entity.Repathed

/-- Every unit is a repathing of itself. -/
theorem refl (e : Entity) : e.Repathed e := rfl

/-- Repathing twice is repathing. -/
theorem trans {e₁ e₂ e₃ : Entity} (h₁₂ : e₁.Repathed e₂) (h₂₃ : e₂.Repathed e₃) :
    e₁.Repathed e₃ := by
  unfold Entity.Repathed at *
  rw [h₂₃, h₁₂]

variable {e e' : Entity} (h : e.Repathed e')
include h

/-- A repathed unit keeps its identifier. -/
theorem id_eq : e'.id = e.id := by
  unfold Entity.Repathed at h
  rw [h]

/-- A repathed unit keeps its state. -/
theorem state_eq : e'.state = e.state := by
  unfold Entity.Repathed at h
  rw [h]

end Entity.Repathed

open InPlace

/-! ## §1 What an action writes -/

namespace Forest

variable {f : Forest}

/-- A refused action leaves the forest as it was. -/
theorem allOrNothing_act (a : Action) : AllOrNothing (act a) := by
  intro f
  cases a with
  | call c => exact allOrNothing_handle c f
  | insert d claim =>
    exact AllOrNothingAt.map _ (allOrNothing_onStore (Store.allOrNothing_insert d claim _))
  | commit c claim =>
    exact AllOrNothingAt.map _ (allOrNothing_onStore (Store.allOrNothing_commit c claim _))
  | forcePath id path level => exact AllOrNothingAt.of_ok rfl

/-- A store write carried out as an action succeeded because the store write did. -/
theorem onStore_map_ok {m : InPlace Store Entity} {f' : Forest} {r : Reply}
    (h : (Reply.unit <$> onStore m).run f = .ok r f') :
    ∃ e, m.run f.store = .ok e f'.store := by
  obtain ⟨e, hm, -⟩ := run_map_ok h
  obtain ⟨s', hs, rfl⟩ := onStore_ok.1 hm
  exact ⟨e, hs⟩

/-- What an action does to the store: nothing, a draft placed, a commit that succeeded, or an
overwrite of one unit's path and level. -/
theorem store_next_cases (f : Forest) (a : Action) :
    (f.next a).store = f.store ∨
    (∃ d, (f.next a).store = (f.store.place d).2) ∨
    (∃ (c : Change) (claim : Option NameClaim) (e : Entity),
      (Store.commit c claim).run f.store = .ok e (f.next a).store) ∨
    (∃ id path level, a = .forcePath id path level ∧
      (f.next a).store = f.store.forcePath id path level) := by
  rcases hrun : (act a).run f with ⟨r, f'⟩ | ⟨e, f'⟩
  · have hnext : f.next a = f' := by simp [next, hrun]
    rw [hnext]
    cases a with
    | call c =>
      have hafter : f.after c = f' := after_of_ok hrun
      rcases store_after_cases f c with same | ⟨d, -, hd⟩ | ⟨ch, claim, e, -, h⟩
      · exact .inl (hafter ▸ same)
      · exact .inr (.inl ⟨d, hafter ▸ hd⟩)
      · exact .inr (.inr (.inl ⟨ch, claim, e, hafter ▸ h⟩))
    | insert d claim =>
      obtain ⟨e, hs⟩ := onStore_map_ok hrun
      obtain ⟨-, hplace⟩ := Store.insert_ok.1 hs
      exact .inr (.inl ⟨d, (congrArg Prod.snd hplace).symm⟩)
    | commit c claim =>
      obtain ⟨e, hs⟩ := onStore_map_ok hrun
      exact .inr (.inr (.inl ⟨c, claim, e, hs⟩))
    | forcePath id path level =>
      simp only [act, EStateM.run_bind, EStateM.run_modify, run_pure,
        EStateM.Result.ok.injEq] at hrun
      exact .inr (.inr (.inr ⟨id, path, level, rfl, by rw [← hrun.2]; rfl⟩))
  · have hnext : f.next a = f' := by simp [next, hrun]
    rw [hnext, allOrNothing_act a f e f' hrun]
    exact .inl rfl

/-- Every action keeps the store keyed. -/
theorem keyed_next (hk : f.store.Keyed) (a : Action) : (f.next a).store.Keyed := by
  rcases store_next_cases f a with same | ⟨d, hd⟩ | ⟨c, claim, e, h⟩ | ⟨id, path, level, -, h⟩
  · rw [same]
    exact hk
  · rw [hd]
    exact hk.place d
  · exact hk.commit h
  · rw [h]
    exact hk.modify fun _ => rfl

/-- Every run of actions keeps the store keyed. -/
theorem keyed_replayActions (hk : f.store.Keyed) (as : List Action) :
    (f.replayActions as).store.Keyed := by
  induction as generalizing f with
  | nil => exact hk
  | cons a as ih => exact ih (keyed_next hk a)

end Forest

/-! ## §2 One action -/

namespace Store

variable {s s' : Store} {e : Entity}

/-- In a keyed store, a unit found active under its identifier in some tenant is active. -/
theorem Keyed.isActive_of_active? (hk : s.Keyed) (he : e ∈ s.entities) {t : Ident} {u : Entity}
    (h : s.active? e.id t = some u) : e.isActive = true := by
  obtain ⟨hu, hid, -, hact⟩ := mem_of_active? h
  rw [hk.eq_of_id_eq he hu hid.symm]
  exact hact

/-- A commit that succeeded on a keyed store left every retired unit as it was: its head and
its rows were all active. -/
theorem Keyed.find?_commit_of_retired (hk : s.Keyed) (he : e ∈ s.entities)
    (hr : e.isActive = false) {c : Change} {claim : Option NameClaim} {r : Entity}
    (h : (Store.commit c claim).run s = .ok r s') : s'.find? e.id = some e := by
  obtain ⟨hv, -, -, -, rfl⟩ := commit_ok h
  obtain ⟨⟨_, hhead⟩, hrows⟩ := vet_ok hv
  have not_head : e.id ≠ c.id := by
    intro heq
    rw [← heq] at hhead
    simp [hk.isActive_of_active? he hhead] at hr
  have not_row : e.id ∉ c.cascade.map Placement.id := by
    intro hm
    obtain ⟨row, hrow, hid⟩ := List.mem_map.1 hm
    obtain ⟨_, hactive⟩ := active?_of_checkRows hrows row hrow
    rw [hid] at hactive
    simp [hk.isActive_of_active? he hactive] at hr
  rw [find?_modify_of_ne (id_stamp c.edit) not_head, find?_writeRows, hk.find?_of_mem he,
    Option.map_some, rowsApplied_of_not_mem not_row]

/-- In a keyed store a commit whose head is retired is refused, and leaves the store. -/
theorem Keyed.commit_refused_of_retired (hk : s.Keyed) (he : e ∈ s.entities)
    (hr : e.isActive = false) {c : Change} (hc : c.id = e.id) (claim : Option NameClaim) :
    ∃ err, (Store.commit c claim).run s = .error err s := by
  rcases h : (Store.commit c claim).run s with ⟨r, s'⟩ | ⟨err, s'⟩
  · obtain ⟨⟨_, hhead⟩, -⟩ := vet_ok (commit_ok h).1
    rw [hc] at hhead
    simp [hk.isActive_of_active? he hhead] at hr
  · exact ⟨err, by rw [allOrNothing_commit c claim s err s' h]⟩

/-- Overwriting a path and a level repaths the unit it names and leaves the others. -/
theorem find?_forcePath (hk : s.Keyed) (he : e ∈ s.entities) (id : Ident) (path : String)
    (level : Int) : ∃ e', (s.forcePath id path level).find? e.id = some e' ∧ e.Repathed e' ∧
      (e.id ≠ id → e' = e) := by
  have hfind : (s.forcePath id path level).find? e.id =
      some (if e.id = id then { e with path := path, level := level } else e) := by
    have keeps : ∀ u : Entity, ({ u with path := path, level := level } : Entity).id = u.id :=
      fun _ => rfl
    rw [forcePath, find?_modify keeps, hk.find?_of_mem he, Option.map_some]
  refine ⟨_, hfind, ?_, fun hne => by simp [hne]⟩
  by_cases hid : e.id = id <;> simp [hid, Entity.Repathed]

end Store

namespace Forest

variable {f : Forest} {e : Entity}

open Store

/-- One action keeps a retired unit of a keyed forest, repathed at most, and exactly as it was
unless the action overwrites a path. -/
theorem retired_next (hk : f.store.Keyed) (he : e ∈ f.store.entities) (hr : e.isActive = false)
    (a : Action) :
    ∃ e', (f.next a).store.find? e.id = some e' ∧ e.Repathed e' ∧
      ((∀ id path level, a ≠ .forcePath id path level) → e' = e) := by
  rcases store_next_cases f a with same | ⟨d, hd⟩ | ⟨c, claim, r, h⟩ |
    ⟨id, path, level, rfl, h⟩
  · exact ⟨e, by rw [same]; exact hk.find?_of_mem he, .refl e, fun _ => rfl⟩
  · exact ⟨e, by rw [hd]; exact find?_place_of_some (hk.find?_of_mem he), .refl e, fun _ => rfl⟩
  · exact ⟨e, hk.find?_commit_of_retired he hr h, .refl e, fun _ => rfl⟩
  · obtain ⟨e', hfind, hrep, -⟩ := find?_forcePath hk he id path level
    exact ⟨e', by rw [h]; exact hfind, hrep, fun hne => absurd rfl (hne id path level)⟩

/-! ## §3 Runs -/

/-- A run of actions keeps a retired unit of a keyed forest, repathed at most, and exactly as
it was when no action of the run overwrites a path. -/
theorem retired_replayActions (hk : f.store.Keyed) (he : e ∈ f.store.entities)
    (hr : e.isActive = false) (as : List Action) :
    ∃ e', (f.replayActions as).store.find? e.id = some e' ∧ e.Repathed e' ∧
      ((∀ a ∈ as, ∀ id path level, a ≠ .forcePath id path level) → e' = e) := by
  induction as generalizing f e with
  | nil => exact ⟨e, hk.find?_of_mem he, .refl e, fun _ => rfl⟩
  | cons a as ih =>
    obtain ⟨e₁, hfind₁, hrep₁, hsame₁⟩ := retired_next hk he hr a
    -- the unit found after the first action is still stored, retired, under the same identifier
    have hmem₁ : e₁ ∈ (f.next a).store.entities := List.mem_of_find?_eq_some hfind₁
    have hr₁ : e₁.isActive = false := by
      simp only [Entity.isActive, hrep₁.state_eq]
      exact hr
    obtain ⟨e₂, hfind₂, hrep₂, hsame₂⟩ := ih (keyed_next hk a) hmem₁ hr₁
    refine ⟨e₂, by rw [← hrep₁.id_eq]; exact hfind₂, hrep₁.trans hrep₂, fun hno => ?_⟩
    rw [hsame₂ fun b hb => hno b (List.mem_cons_of_mem a hb),
      hsame₁ (hno a List.mem_cons_self)]

/-- **Tombstones are permanent.** Take a keyed forest (every state calls and store writes reach
is one) and a retired unit of it. After any run of actions (calls to the service, store inserts
and commits, overwrites of paths and levels) the unit is found retired, with every field as it
was but its path and level, and exactly as it was when the run overwrites no path; and every
commit whose head it is, a change of its state back to active included, is refused and leaves
the store as it was. -/
theorem retired_units_stay_retired (f : Forest) (hk : f.store.Keyed) (e : Entity)
    (he : e ∈ f.store.entities) (hr : e.state = .inactive) (as : List Action) :
    ∃ e', (f.replayActions as).store.find? e.id = some e' ∧ e'.state = .inactive ∧
      e' = { e with path := e'.path, level := e'.level } ∧
      ((∀ a ∈ as, ∀ id path level, a ≠ .forcePath id path level) → e' = e) ∧
      ∀ (c : Change) (claim : Option NameClaim), c.id = e.id →
        ∃ err, (Store.commit c claim).run (f.replayActions as).store =
          .error err (f.replayActions as).store := by
  have hretired : e.isActive = false := by simp [Entity.isActive, hr, Lifecycle.isActive]
  obtain ⟨e', hfind, hrep, hsame⟩ := retired_replayActions hk he hretired as
  have hk' := keyed_replayActions hk as
  have hmem' : e' ∈ (f.replayActions as).store.entities := List.mem_of_find?_eq_some hfind
  have hretired' : e'.isActive = false := by
    simp only [Entity.isActive, hrep.state_eq]
    exact hretired
  refine ⟨e', hfind, hrep.state_eq.trans hr, hrep, hsame, fun c claim hc => ?_⟩
  exact hk'.commit_refused_of_retired hmem' hretired' (hc.trans hrep.id_eq.symm) claim

/-- `Acme`, retired at version 2. -/
def retiredAcme : Entity :=
  { id := Ident.serial 1, tenant := Ident.ofNat 1, name := "Acme", kind := .company,
    parent := none, path := "Acme", level := 0, metadata := .record [], state := .inactive,
    version := 2, createdBy := none, updatedBy := none }

/-- The forest holding the retired `Acme` alone. -/
def retiredAcmeForest : Forest := { store := ⟨[retiredAcme], 1⟩ }

/-- A commit that sets the retired `Acme` back to active. -/
def reactivateAcme : Change :=
  { tenant := Ident.ofNat 1, id := Ident.serial 1, expected := 2,
    edit := { state := some .active } }

/-- The retired `Acme` stays retired through an attempt to reactivate it and a rename. -/
theorem retired_acme_stays_retired :
    (retiredAcmeForest.store.Keyed ∧ retiredAcme ∈ retiredAcmeForest.store.entities ∧
      retiredAcme.state = .inactive) ∧
    ∃ e', (retiredAcmeForest.replayActions
        [.commit reactivateAcme none,
          .call { tenant := Ident.ofNat 1, request := .rename (Ident.serial 1) "Acme Corp" }]).store.find?
        retiredAcme.id = some e' ∧ e'.state = .inactive := by
  have hk : retiredAcmeForest.store.Keyed :=
    ⟨List.nodup_singleton _, fun e he => by
      simp only [retiredAcmeForest, List.mem_singleton] at he
      subst he
      exact serial_bits_lt (by decide)⟩
  have hmem : retiredAcme ∈ retiredAcmeForest.store.entities := List.mem_singleton_self _
  obtain ⟨e', hfind, hstate, -⟩ :=
    retired_units_stay_retired retiredAcmeForest hk retiredAcme hmem rfl
      [.commit reactivateAcme none,
        .call { tenant := Ident.ofNat 1, request := .rename (Ident.serial 1) "Acme Corp" }]
  exact ⟨⟨hk, hmem, rfl⟩, e', hfind, hstate⟩

end Forest

end TenantForest

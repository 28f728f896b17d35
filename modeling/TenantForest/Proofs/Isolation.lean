import TenantForest.Proofs.ProjectedViews
import TenantForest.Proofs.Renumbering

/-!
# Tenants do not see each other

Under every naming policy but the global one, what a tenant is answered does not depend on
what other tenants do. Take any run of calls, and tenant `t` whose calls name only units of
`t` (or identifiers never handed out). Serving `t`'s calls alone, with the identifiers
renamed by the renumbering of the store the whole run ends with (`Store.renumberFor`),
gives every one of them the answer it got in the whole run, renamed the same way
(`tenant_answers_independent`).

The proof is a simulation through `Forest.project`, which keeps `t`'s units renamed and
forgets the rest.

  §1 Lookups — resolving parents, the claims on names and the destination of a move read
     the projection as they read the forest.
  §2 Writes — create, rename, move and remove of `t` mirror one another on the forest and
     its projection; a create needs the renaming to give the new unit the identifier `t`'s
     own counter gives it.
  §3 Calls — a call of `t` mirrors itself renamed; a call of another tenant leaves the
     projection as it is.
  §4 Runs — by induction on the run, with the renumbering of the final store: it is
     injective, keeps the order of `t`'s units, and each unit `t` creates in the run is the
     next unit `t` creates alone.
-/

namespace TenantForest

variable {σ : Ident → Ident} {t : Ident}

/-! ## §1 Lookups -/

theorem CreateRequest.validate_relabel (r : CreateRequest) :
    (r.relabel σ).validate = relabelResult σ id r.validate := by
  unfold CreateRequest.validate
  cases h₁ : r.name.isEmpty <;> cases h₂ : r.metadata.isRecord <;>
    simp [CreateRequest.relabel, h₁, h₂, Fault.relabel]

namespace Settings

variable (st : Settings)

/-- Names are checked against the settings only, and their faults name no unit. -/
theorem validateName_relabel (name : String) :
    st.validateName name = relabelResult σ id (st.validateName name) := by
  unfold validateName
  dsimp only
  split_ifs <;> rfl

theorem checkDepth_relabel (level : Int) :
    st.checkDepth level = relabelResult σ id (st.checkDepth level) := by
  unfold checkDepth
  split_ifs <;> rfl

/-- A path is derived from the parent's path and level, which renaming keeps. -/
@[simp] theorem derive_relabel (name : String) (parent : Option Entity) :
    st.derive name (parent.map (Entity.relabel σ)) = st.derive name parent := by
  cases parent <;> rfl

end Settings

namespace Forest

variable {f : Forest}

theorem resolveParent_project (hσ : Function.Injective σ) (hk : f.store.Keyed) {p : Ident}
    (hp : ∀ e ∈ f.store.entities, e.id = p → e.tenant = t) :
    (f.project σ t).resolveParent (σ p) t =
      relabelResult σ (Entity.relabel σ) (f.resolveParent p t) := by
  unfold resolveParent
  rw [store_project, Store.active?_project hσ hk]
  cases f.store.active? p t with
  | some e => rfl
  | none =>
    simp only [Option.map_none, Store.locate_project hσ hk hp]
    cases f.store.locate p with
    | none => rfl
    | some owner => by_cases h : owner = t <;> simp [h, Fault.relabel]

theorem parentOf_project (hσ : Function.Injective σ) (hk : f.store.Keyed) {p : Option Ident}
    (hp : ∀ x ∈ p, ∀ e ∈ f.store.entities, e.id = x → e.tenant = t) :
    (f.project σ t).parentOf t (p.map σ) =
      relabelResult σ (Option.map (Entity.relabel σ)) (f.parentOf t p) := by
  cases p with
  | none => rfl
  | some x =>
    simp only [Option.map_some, parentOf, resolveParent_project hσ hk (hp x rfl)]
    cases f.resolveParent x t <;> rfl

theorem currentParent_project (hσ : Function.Injective σ) (hk : f.store.Keyed)
    (p : Option Ident) :
    (f.project σ t).currentParent t (p.map σ) =
      relabelResult σ (Option.map (Entity.relabel σ)) (f.currentParent t p) := by
  cases p with
  | none => rfl
  | some x =>
    simp only [Option.map_some, currentParent, store_project, Store.getActive_project hσ hk]
    cases f.store.getActive x t <;> rfl

theorem claimFor_project (name : String) (parent exclude : Option Ident) :
    (f.project σ t).claimFor name t (parent.map σ) (exclude.map σ) =
      (f.claimFor name t parent exclude).map (NameClaim.relabel σ) := by
  unfold claimFor
  rw [settings_project]
  cases f.settings.policy <;> rfl

/-- Away from the global policy, the claims a tenant makes lie within the tenant. -/
theorem claimFor_inTenant (hpol : f.settings.policy ≠ .global) (name : String)
    (parent exclude : Option Ident) :
    ∀ q ∈ f.claimFor name t parent exclude, q.scope.InTenant t := by
  intro q hq
  unfold claimFor at hq
  cases hp : f.settings.policy <;> simp only [hp, Option.mem_def, Option.some.injEq,
    reduceCtorEq] at hq
  · exact absurd hp hpol
  · subst hq
    rfl
  · subst hq
    rfl

theorem ensureAvailable_project (hσ : Function.Injective σ) {claim : Option NameClaim}
    (hq : ∀ q ∈ claim, q.scope.InTenant t) :
    (f.project σ t).ensureAvailable (claim.map (NameClaim.relabel σ)) =
      relabelResult σ id (f.ensureAvailable claim) := by
  cases claim with
  | none => rfl
  | some q =>
    simp only [ensureAvailable, Option.map_some, store_project, settings_project,
      Store.nameInUse_project hσ (hq q rfl), NameClaim.relabel_name]
    cases f.store.nameInUse q <;> rfl

theorem destination_project (hσ : Function.Injective σ) (hk : f.store.Keyed) (x : Ident)
    {target : Option Ident}
    (htarget : ∀ p ∈ target, ∀ e ∈ f.store.entities, e.id = p → e.tenant = t) :
    (f.project σ t).destination t (σ x) (target.map σ) =
      relabelResult σ (Option.map (Entity.relabel σ)) (f.destination t x target) := by
  cases target with
  | none => rfl
  | some p =>
    simp only [destination, Option.map_some, beq_relabel hσ]
    by_cases hpx : (p == x) = true
    · simp only [hpx, ↓reduceIte]
      rfl
    · simp only [hpx, resolveParent_project hσ hk (htarget p rfl), settings_project,
        store_project, Store.wouldCycle_project hσ hk]
      cases f.resolveParent p t with
      | error e => rfl
      | ok parent =>
        cases f.store.wouldCycle f.settings.maxDepth x p t with
        | error e => rfl
        | ok cycle => cases cycle <;> rfl

/-! ## §2 Writes -/

/-- A create whose checks all pass inserts its draft. -/
theorem create_run_of_checks {actor : Option Ident} {r : CreateRequest} {name : String}
    {parent : Option Entity} {path : String} {level : Int} (hv : r.validate = .ok ())
    (hn : f.settings.validateName r.name = .ok name) (hp : f.parentOf t r.parent = .ok parent)
    (hd : f.settings.derive name parent = (path, level))
    (hdepth : f.settings.checkDepth level = .ok ())
    (hfree : f.ensureAvailable (f.claimFor name t r.parent none) = .ok ()) :
    (create t actor r).run f = (onStore (Store.insert ⟨t, name, r.kind, r.parent, path, level,
      r.metadata, actor⟩ (f.claimFor name t r.parent none))).run f := by
  unfold create
  rw [InPlace.run_getThe_bind, hv, InPlace.check_ok_bind, hn, InPlace.check_ok_bind, hp,
    InPlace.check_ok_bind]
  simp only [hd, hdepth, InPlace.check_ok_bind, hfree]

section Writes

variable (hσ : Function.Injective σ) (hk : f.store.Keyed) (hpol : f.settings.policy ≠ .global)
include hσ hk hpol

/-- A create of `t` whose parent, if any, is `t`'s or was never handed out mirrors itself
renamed, when the renaming gives the unit it stores the identifier `t`'s own counter
gives it. -/
theorem mirrors_create {actor : Option Ident} {r : CreateRequest}
    (hr : ∀ p ∈ r.parent, ∀ e ∈ f.store.entities, e.id = p → e.tenant = t)
    (hnext : ∀ e f', (create t actor r).run f = .ok e f' →
      σ (Ident.serial (f.store.issued + 1)) = Ident.serial ((f.store.project σ t).issued + 1)) :
    Mirrors σ (Forest.project σ t) f (Entity.relabel σ) (create t actor r)
      (create t actor (r.relabel σ)) := by
  unfold create
  refine Mirrors.getThe_bind ?_
  refine Mirrors.check_bind (CreateRequest.validate_relabel r) fun _ hv => ?_
  refine Mirrors.check_bind (Settings.validateName_relabel _ _) fun name hn => ?_
  refine Mirrors.check_bind (parentOf_project hσ hk hr) fun parent hp => ?_
  simp only [settings_project, Settings.derive_relabel, id_eq]
  cases hd : f.settings.derive name parent with
  | mk path level =>
  refine Mirrors.check_bind (Settings.checkDepth_relabel _ _) fun _ hdepth => ?_
  have hclaim : (f.project σ t).claimFor name t (r.relabel σ).parent none =
      (f.claimFor name t r.parent none).map (NameClaim.relabel σ) :=
    claimFor_project name r.parent none
  have hq : ∀ q ∈ f.claimFor name t r.parent none, q.scope.InTenant t :=
    claimFor_inTenant hpol name r.parent none
  simp only [hclaim]
  refine Mirrors.check_bind (ensureAvailable_project hσ hq) fun _ hfree => ?_
  have hdraft : (⟨t, name, (r.relabel σ).kind, (r.relabel σ).parent, path, level,
      (r.relabel σ).metadata, actor⟩ : Draft) =
      Draft.relabel σ ⟨t, name, r.kind, r.parent, path, level, r.metadata, actor⟩ := rfl
  rw [hdraft]
  -- the insert passes its checks exactly when the whole create succeeds
  refine mirrors_onStore (Store.mirrors_insert hσ hk rfl hq fun hal => ?_)
  exact hnext _ _ ((create_run_of_checks hv hn hp hd hdepth hfree).trans
    (onStore_ok.2 ⟨_, Store.insert_ok.2 ⟨hal, rfl⟩, rfl⟩))

/-- A rename of a unit of `t` mirrors itself renamed. -/
theorem mirrors_rename {actor : Option Ident} (x : Ident) (newName : String) :
    Mirrors σ (Forest.project σ t) f (Entity.relabel σ) (rename t actor x newName)
      (rename t actor (σ x) newName) := by
  unfold rename
  refine Mirrors.getThe_bind ?_
  refine Mirrors.check_bind (Settings.validateName_relabel _ _) fun name _ => ?_
  refine Mirrors.check_bind (Store.getActive_project hσ hk x) fun node hnode => ?_
  have ht : node.tenant = t := (Store.mem_of_active? (Store.getActive_ok hnode)).2.2.1
  simp only [Entity.relabel_name, id_eq]
  by_cases hsame : (node.name == name) = true
  · simp only [hsame, ↓reduceIte]
    exact Mirrors.pure node
  simp only [hsame, Bool.false_eq_true, ↓reduceIte]
  have hclaim : (f.project σ t).claimFor name t (node.relabel σ).parent (some (σ x)) =
      (f.claimFor name t node.parent (some x)).map (NameClaim.relabel σ) :=
    claimFor_project name node.parent (some x)
  have hq : ∀ q ∈ f.claimFor name t node.parent (some x), q.scope.InTenant t :=
    claimFor_inTenant hpol name node.parent (some x)
  simp only [hclaim]
  refine Mirrors.check_bind (ensureAvailable_project hσ hq) fun _ _ => ?_
  refine Mirrors.check_bind (currentParent_project hσ hk node.parent) fun parent _ => ?_
  simp only [settings_project, Settings.derive_relabel]
  cases f.settings.derive name parent with
  | mk path level =>
  refine Mirrors.check_bind (planCascade_project hσ ht path level) fun cascade _ => ?_
  have hchange : (⟨t, σ x, (node.relabel σ).version,
      ⟨some name, none, some path, some level, none, none, actor⟩,
      cascade.map (Placement.relabel σ)⟩ : Change) =
      Change.relabel σ ⟨t, x, node.version,
        ⟨some name, none, some path, some level, none, none, actor⟩, cascade⟩ := rfl
  rw [hchange]
  exact mirrors_onStore (Store.mirrors_commit hσ hk rfl hq)

/-- A move of a unit of `t` below a unit of `t`, or one never handed out, mirrors itself
renamed. -/
theorem mirrors_move {actor : Option Ident} (x : Ident) {target : Option Ident}
    (htarget : ∀ p ∈ target, ∀ e ∈ f.store.entities, e.id = p → e.tenant = t) :
    Mirrors σ (Forest.project σ t) f (Entity.relabel σ) (move t actor x target)
      (move t actor (σ x) (target.map σ)) := by
  unfold move
  refine Mirrors.getThe_bind ?_
  refine Mirrors.check_bind (Store.getActive_project hσ hk x) fun node hnode => ?_
  have ht : node.tenant = t := (Store.mem_of_active? (Store.getActive_ok hnode)).2.2.1
  refine Mirrors.check_bind (destination_project hσ hk x htarget) fun parent _ => ?_
  simp only [Entity.relabel_parent, beq_map_map hσ]
  by_cases hsame : (node.parent == target) = true
  · simp only [hsame, ↓reduceIte]
    exact Mirrors.pure node
  simp only [hsame, Bool.false_eq_true, ↓reduceIte]
  simp only [settings_project, Settings.derive_relabel, Entity.relabel_name]
  cases f.settings.derive node.name parent with
  | mk path level =>
  refine Mirrors.check_bind (Settings.checkDepth_relabel _ _) fun _ _ => ?_
  have hclaim : (f.project σ t).claimFor node.name t (target.map σ) (some (σ x)) =
      (f.claimFor node.name t target (some x)).map (NameClaim.relabel σ) :=
    claimFor_project node.name target (some x)
  have hq : ∀ q ∈ f.claimFor node.name t target (some x), q.scope.InTenant t :=
    claimFor_inTenant hpol node.name target (some x)
  simp only [hclaim]
  refine Mirrors.check_bind (ensureAvailable_project hσ hq) fun _ _ => ?_
  refine Mirrors.check_bind (planCascade_project hσ ht path level) fun cascade _ => ?_
  have hchange : (⟨t, σ x, (node.relabel σ).version,
      ⟨none, some (target.map σ), some path, some level, none, none, actor⟩,
      cascade.map (Placement.relabel σ)⟩ : Change) =
      Change.relabel σ ⟨t, x, node.version,
        ⟨none, some target, some path, some level, none, none, actor⟩, cascade⟩ := rfl
  rw [hchange]
  exact mirrors_onStore (Store.mirrors_commit hσ hk rfl hq)

omit hpol in
/-- A removal of a unit of `t` mirrors itself renamed: children and dependents are counted
within the tenant. -/
theorem mirrors_remove {actor : Option Ident} (x : Ident) :
    Mirrors σ (Forest.project σ t) f (Entity.relabel σ) (remove t actor x)
      (remove t actor (σ x)) := by
  unfold remove
  refine Mirrors.getThe_bind ?_
  refine Mirrors.check_bind (Store.getActive_project hσ hk x) fun node _ => ?_
  simp only [store_project, Store.countChildren_project hσ, dependents_project,
    Dependents.count_project hσ, Entity.relabel_path, Entity.relabel_state, Entity.relabel_version]
  by_cases hchildren : f.store.countChildren x t > 0
  · simp only [hchildren, ↓reduceIte]
    exact Mirrors.throw _
  by_cases hdependents : f.dependents.count t x > 0
  · simp only [hchildren, hdependents, ↓reduceIte]
    exact Mirrors.throw _
  by_cases hstate : (!node.state.canBecome .inactive) = true
  · simp only [hchildren, hdependents, hstate, ↓reduceIte]
    exact Mirrors.throw _
  simp only [hchildren, hdependents, hstate, ↓reduceIte, Store.update]
  have hchange : (⟨t, σ x, node.version, ⟨none, none, none, none, none, some .inactive, actor⟩,
      []⟩ : Change) =
      Change.relabel σ ⟨t, x, node.version, ⟨none, none, none, none, none, some .inactive, actor⟩,
        []⟩ := rfl
  rw [hchange]
  exact mirrors_onStore (Store.mirrors_commit hσ hk rfl fun q (hq : q ∈ none) => by cases hq)

end Writes

/-! ## §3 Calls -/

/-- A read whose result in the projection is its result in the forest, renamed. -/
theorem mirrors_answer {α β : Type} {r : Forest → Except Fault α} {r' : Forest → Except Fault β}
    {reply : α → Reply} {reply' : β → Reply} {g : α → β}
    (hr : r' (f.project σ t) = relabelResult σ g (r f))
    (hreply : ∀ a, reply' (g a) = (reply a).relabel σ) :
    Mirrors σ (Forest.project σ t) f (Reply.relabel σ) (answer r reply) (answer r' reply') := by
  unfold answer
  refine Mirrors.getThe_bind (Mirrors.check_bind hr fun a _ => ?_)
  rw [hreply]
  exact Mirrors.pure _

theorem setDependents_project (hσ : Function.Injective σ) (x : Ident) (n : Nat) :
    (f.project σ t).setDependents t (σ x) n = (f.setDependents t x n).project σ t := by
  simp only [setDependents, Forest.project, Dependents.set_project hσ]

/-- A call of `t` that names only units of `t`, or identifiers never handed out, mirrors
itself renamed. -/
theorem mirrors_handle (hσ : Function.Injective σ) (hk : f.store.Keyed)
    (hpol : f.settings.policy ≠ .global) (hord : KeepsOrder σ (f.store.activeOf t)) {c : Call}
    (hc : c.tenant = t)
    (hrefs : ∀ x ∈ c.request.units, ∀ e ∈ f.store.entities, e.id = x → e.tenant = t)
    (hnext : ∀ r e f', c.request = .create r → (create t c.actor r).run f = .ok e f' →
      σ (Ident.serial (f.store.issued + 1)) = Ident.serial ((f.store.project σ t).issued + 1)) :
    Mirrors σ (Forest.project σ t) f (Reply.relabel σ) (handle c) (handle (c.relabel σ)) := by
  obtain ⟨u, actor, request⟩ := c
  change u = t at hc
  subst u
  cases request with
  | create r =>
    exact Mirrors.map (mirrors_create hσ hk hpol (fun p hp => hrefs p (Option.mem_toList.2 hp))
      fun e f' => hnext r e f' rfl) fun _ => rfl
  | get x => exact mirrors_answer (get_project hσ hk x) fun _ => rfl
  | list flt page => exact mirrors_answer (list_project hσ hord flt page) fun _ => rfl
  | children x => exact mirrors_answer (children_project hσ hk x) fun _ => rfl
  | rename x name => exact Mirrors.map (mirrors_rename hσ hk hpol x name) fun _ => rfl
  | move x target =>
    exact Mirrors.map (mirrors_move hσ hk hpol x fun p hp =>
      hrefs p (List.mem_cons_of_mem _ (Option.mem_toList.2 hp))) fun _ => rfl
  | remove x => exact Mirrors.map (mirrors_remove hσ hk x) fun _ => rfl
  | hierarchy d => exact mirrors_answer (hierarchy_project hσ hord d) fun _ => rfl
  | tree d => exact mirrors_answer (outline_project hσ hord d) fun _ => rfl
  | ancestors x => exact mirrors_answer (ancestors_project hσ hk x) fun _ => rfl
  | stats =>
    have hr : Except.ok ((f.project σ t).stats t) = relabelResult σ id (.ok (f.stats t)) := by
      rw [stats_project hord hσ]
      rfl
    exact mirrors_answer hr fun _ => rfl
  | verify =>
    have hr : Except.ok ((f.project σ t).verify t) =
        relabelResult σ (List.map (Issue.relabel σ)) (.ok (f.verify t)) := by
      rw [verify_project hσ hord]
      rfl
    exact mirrors_answer hr fun _ => rfl
  | setDependents x n =>
    exact Mirrors.bind (Mirrors.modify (setDependents_project hσ x n)) fun _ _ _ => Mirrors.pure _

/-- A mirrored call is answered in the projection with the renamed answer, and leaves the
projection of the forest it leaves. -/
theorem reply_after_of_mirrors {c c' : Call}
    (h : Mirrors σ (Forest.project σ t) f (Reply.relabel σ) (handle c) (handle c')) :
    (f.project σ t).reply c' = relabelResult σ (Reply.relabel σ) (f.reply c) ∧
      (f.project σ t).after c' = (f.after c).project σ t := by
  unfold Mirrors at h
  unfold reply serve after
  rw [h]
  cases (handle c).run f <;> exact ⟨rfl, rfl⟩

end Forest

namespace Store

variable {s s' : Store}

/-- Stores with the same units of `t` have the same projection on `t`. -/
theorem project_eq_of_filter
    (h : s'.entities.filter (fun e => e.tenant == t) = s.entities.filter (fun e => e.tenant == t)) :
    s'.project σ t = s.project σ t := by
  simp only [project, h]

theorem project_place_of_ne {d : Draft} (hd : d.tenant ≠ t) :
    (s.place d).2.project σ t = s.project σ t :=
  project_eq_of_filter (by simp [Draft.settle, hd])

/-- Rewriting units in place, keeping their tenants and leaving `t`'s alone, keeps the
projection on `t`. -/
theorem project_map_of_fix {g : Entity → Entity} (hg : ∀ v, (g v).tenant = v.tenant)
    (hfix : ∀ v ∈ s.entities, v.tenant = t → g v = v) (he : s'.entities = s.entities.map g) :
    s'.project σ t = s.project σ t := by
  refine project_eq_of_filter ?_
  rw [he, List.filter_map]
  have hsame : (s.entities.filter ((fun e => e.tenant == t) ∘ g)) =
      s.entities.filter (fun e => e.tenant == t) :=
    List.filter_congr fun v _ => by simp [hg]
  rw [hsame]
  refine (List.map_congr_left fun v hv => ?_).trans (List.map_id _)
  obtain ⟨hv, hvt⟩ := List.mem_filter.1 hv
  exact hfix v hv (by simpa using hvt)

/-- A commit of another tenant leaves the projection on `t` as it is: every unit it
writes passed a check in that tenant. -/
theorem project_commit_of_ne (hk : s.Keyed) {c : Change} {claim : Option NameClaim} {e : Entity}
    (h : (commit c claim).run s = .ok e s') (hc : c.tenant ≠ t) :
    s'.project σ t = s.project σ t := by
  obtain ⟨hvet, -, -, -, rfl⟩ := commit_ok h
  have named : ∀ {x}, (∃ u, s.active? x c.tenant = some u) →
      ∀ v ∈ s.entities, v.tenant = t → v.id ≠ x := by
    rintro x ⟨u, hu⟩ v hv hvt rfl
    obtain ⟨hmem, hid, hten, -⟩ := mem_of_active? hu
    exact hc (by rw [← hten, hk.eq_of_id_eq hmem hv hid, hvt])
  refine project_map_of_fix (fun v => ?_) (fun v hv hvt => ?_)
    (entities_commit s c.cascade c.id (stamp c.edit))
  · have hr := relocated_rowsApplied c.cascade v
    split <;> simp [hr.tenant_eq, stamp, Edit.apply]
  · have hrows : rowsApplied c.cascade v = v := rowsApplied_of_not_mem fun hm => by
      obtain ⟨r, hr, hrid⟩ := List.mem_map.1 hm
      exact named (active?_of_checkRows (vet_ok hvet).2 r hr) v hv hvt hrid.symm
    have hhead : (v.id == c.id) = false := by
      simpa using named (vet_ok hvet).1 v hv hvt
    simp [hhead, hrows]

end Store

namespace Forest

variable {f : Forest}

/-- A call of another tenant leaves the projection on `t` as it is. -/
theorem project_after_of_ne (hk : f.store.Keyed) {c : Call} (hc : c.tenant ≠ t) :
    (f.after c).project σ t = f.project σ t := by
  have hstore : (f.after c).store.project σ t = f.store.project σ t := by
    rcases store_after_cases f c with same | ⟨d, hd, hs⟩ | ⟨ch, claim, e, hch, h⟩
    · rw [same]
    · rw [hs]
      exact Store.project_place_of_ne (hd ▸ hc)
    · exact Store.project_commit_of_ne hk h (hch ▸ hc)
  have hdependents : (f.after c).dependents.project σ t = f.dependents.project σ t := by
    rcases dependents_after f c with same | ⟨x, n, -, hd⟩
    · rw [same]
    · rw [hd]
      exact Dependents.set_project_of_ne hc _ _ _
  simp only [Forest.project, hstore, hdependents, settings_after]

/-! ## §4 Runs -/

variable {st : Settings}

/-- A create that succeeds stores the next unit, of its own tenant, at the end. -/
theorem keys_of_create_ok {u : Ident} {actor : Option Ident} {r : CreateRequest} {e : Entity}
    {f' : Forest} (h : (create u actor r).run f = .ok e f') :
    f'.store.keys = f.store.keys ++ [(Ident.serial (f.store.issued + 1), u)] := by
  obtain ⟨_, _, _, _, -, -, -, -, -, -, s', hs, rfl⟩ := create_ok h
  obtain ⟨-, hp⟩ := Store.insert_ok.1 hs
  have hs' := (congrArg Prod.snd hp).symm
  simp only at hs'
  subst hs'
  exact Store.keys_place _ _

theorem after_of_create_ok {c : Call} {r : CreateRequest} (hreq : c.request = .create r)
    {e : Entity} {f' : Forest} (h : (create c.tenant c.actor r).run f = .ok e f') :
    f.after c = f' := by
  refine after_of_ok (r := .unit e) ?_
  simp [handle, hreq, h]

theorem compare_eq_of_lt_iff {x y x' y' : Nat} (h₁ : x < y ↔ x' < y') (h₂ : y < x ↔ y' < x') :
    compare x y = compare x' y' := by
  rcases Nat.lt_trichotomy x' y' with h | h | h
  · rw [Nat.compare_eq_lt.2 (h₁.2 h), Nat.compare_eq_lt.2 h]
  · have hxy : x = y := by
      have := h₁.not.2 (by omega)
      have := h₂.not.2 (by omega)
      omega
    rw [Nat.compare_eq_eq.2 hxy, Nat.compare_eq_eq.2 h]
  · rw [Nat.compare_eq_gt.2 (h₂.2 h), Nat.compare_eq_gt.2 h]

/-- The renumbering of a store the run goes on to keeps the order of `t`'s active units
at every point of the run. -/
theorem keepsOrder_renumberFor {final : Store} (hfinal : final.Serial)
    (hpre : f.store.keys <+: final.keys) :
    KeepsOrder (final.renumberFor t) (f.store.activeOf t) := by
  have mem : ∀ {v}, v ∈ f.store.activeOf t → v.id ∈ final.idsOf t := fun hv => by
    obtain ⟨hv, hact⟩ := Store.mem_activeOf.1 hv
    have ht : _ = t := beq_iff_eq.1 (Bool.and_eq_true_iff.1 hact).1
    exact Store.mem_idsOf.2 (hpre.subset (Store.mem_keys.2 ⟨_, hv, rfl, ht⟩))
  intro a ha b hb
  exact compare_eq_of_lt_iff (Store.renumberFor_lt_iff hfinal (mem ha) (mem hb))
    (Store.renumberFor_lt_iff hfinal (mem hb) (mem ha))

/-- What a unit named in the run is in the store the run ends with, it was wherever it
was stored before. -/
theorem tenant_of_prefix {final : Store} (hpre : f.store.keys <+: final.keys) {x : Ident}
    (hx : ∀ e ∈ final.entities, e.id = x → e.tenant = t) :
    ∀ e ∈ f.store.entities, e.id = x → e.tenant = t := by
  intro e he hid
  obtain ⟨e', he', hid', hten'⟩ :=
    Store.mem_keys.1 (hpre.subset (Store.mem_keys.2 ⟨e, he, rfl, rfl⟩))
  rw [← hten']
  exact hx e' he' (hid'.trans hid)

/-- The simulation over a run: from a reachable forest whose run ends with the store
`final`, the calls of `t` served alone from the projection, renamed by the renumbering of
`final`, get the answers they got in the run, renamed. -/
theorem replies_project (hpol : st.policy ≠ .global) {final : Store} (hfinal : final.Serial) :
    ∀ (calls : List Call) (f : Forest), Reachable st f → (f.replay calls).store = final →
      (∀ c ∈ calls, c.tenant = t →
        ∀ x ∈ c.request.units, ∀ e ∈ final.entities, e.id = x → e.tenant = t) →
      (f.project (final.renumberFor t) t).replies
          ((calls.filter (·.tenant == t)).map (Call.relabel (final.renumberFor t))) =
        ((calls.zip (f.replies calls)).filter (·.1.tenant == t)).map
          fun p => relabelResult (final.renumberFor t) (Reply.relabel (final.renumberFor t)) p.2
  | [], _, _, _, _ => rfl
  | c :: cs, f, hf, hend, hrefs => by
    have hend' : ((f.after c).replay cs).store = final := hend
    have hpre : f.store.keys <+: final.keys := by
      rw [← hend]
      exact keys_replay f (c :: cs)
    have ih := replies_project hpol hfinal cs (f.after c) (hf.after c) hend'
      fun c' hc' => hrefs c' (List.mem_cons_of_mem _ hc')
    by_cases hc : c.tenant = t
    · -- a call of `t` is served in the projection too, renamed
      have hnext : ∀ r e f', c.request = .create r → (create t c.actor r).run f = .ok e f' →
          final.renumberFor t (Ident.serial (f.store.issued + 1)) =
            Ident.serial ((f.store.project (final.renumberFor t) t).issued + 1) := by
        intro r e f' hreq hrun
        have hafter : f.after c = f' := after_of_create_ok hreq (hc ▸ hrun)
        have hpre' : f.store.keys ++ [(Ident.serial (f.store.issued + 1), t)] <+: final.keys := by
          rw [← keys_of_create_ok hrun, ← hafter, ← hend']
          exact keys_replay (f.after c) cs
        rw [Store.issued_project, Store.renumberFor_next hfinal.keyed hpre']
      have hmirror := mirrors_handle (Store.renumberFor_injective hfinal) hf.keyed
        (by rwa [hf.settings_eq]) (keepsOrder_renumberFor hfinal hpre) hc
        (fun x hx => tenant_of_prefix hpre (hrefs c List.mem_cons_self hc x hx)) hnext
      obtain ⟨hreply, hafter⟩ := reply_after_of_mirrors hmirror
      simp only [List.filter_cons, hc, beq_self_eq_true, ↓reduceIte, List.map_cons, replies,
        List.zip_cons_cons]
      rw [hreply, hafter, ih]
    · -- a call of another tenant is dropped, and the projection does not see it
      have hskip : (c.tenant == t) = false := by simpa using hc
      simp only [List.filter_cons, hskip, Bool.false_eq_true, ↓reduceIte, replies,
        List.zip_cons_cons]
      rw [← project_after_of_ne hf.keyed hc]
      exact ih

/-- **Tenants do not see each other.** Under the naming policies `siblings`, `tenant` and
`none`, take any run of calls from the empty forest, and a tenant `t` whose calls name only
units of `t` or identifiers never handed out. Rename identifiers by the renumbering of the
store the run ends with: it is injective, sends `t`'s units, oldest first, to the serial
identifiers `t`'s own counter gives, and keeps their order. Then serving `t`'s calls alone,
renamed, answers each of them as the whole run did, renamed. -/
theorem tenant_answers_independent {st : Settings} (hpol : st.policy ≠ .global) (t : Ident)
    (calls : List Call)
    (hrefs : ∀ c ∈ calls, c.tenant = t → ∀ x ∈ c.request.units,
      ∀ e ∈ ((Forest.empty st).replay calls).store.entities, e.id = x → e.tenant = t) :
    let final := ((Forest.empty st).replay calls).store
    let σ := final.renumberFor t
    Function.Injective σ ∧
      (final.idsOf t).map σ =
        (List.range (final.idsOf t).length).map (fun i => Ident.serial (i + 1)) ∧
      (∀ a ∈ final.idsOf t, ∀ b ∈ final.idsOf t, (σ a).bits < (σ b).bits ↔ a.bits < b.bits) ∧
      (Forest.empty st).replies ((calls.filter (·.tenant == t)).map (Call.relabel σ)) =
        ((calls.zip ((Forest.empty st).replies calls)).filter (·.1.tenant == t)).map
          fun p => relabelResult σ (Reply.relabel σ) p.2 := by
  intro final σ
  have hfinal : final.Serial := (Reachable.empty.replay calls).serial
  refine ⟨Store.renumberFor_injective hfinal, Store.renumberFor_idsOf hfinal.keyed,
    fun a ha b hb => Store.renumberFor_lt_iff hfinal ha hb, ?_⟩
  have h := replies_project hpol hfinal calls (Forest.empty st) .empty rfl hrefs
  rwa [project_empty] at h

/-- Two tenants create one unit each; the second tenant then reads its unit back, which the
shared counter numbered second. -/
def acmeBetaCalls : List Call :=
  [{ tenant := Ident.ofNat 1, request := .create { name := "Acme" } },
   { tenant := Ident.ofNat 2, request := .create { name := "Beta" } },
   { tenant := Ident.ofNat 2, request := .get (Ident.serial 2) }]

theorem beta_answers_independent :
    ({} : Settings).policy ≠ .global ∧
    (∀ c ∈ acmeBetaCalls, c.tenant = Ident.ofNat 2 → ∀ x ∈ c.request.units,
      ∀ e ∈ ((Forest.empty {}).replay acmeBetaCalls).store.entities, e.id = x →
        e.tenant = Ident.ofNat 2) ∧
    (let final := ((Forest.empty {}).replay acmeBetaCalls).store
     let σ := final.renumberFor (Ident.ofNat 2)
     Function.Injective σ ∧
      (final.idsOf (Ident.ofNat 2)).map σ =
        (List.range (final.idsOf (Ident.ofNat 2)).length).map (fun i => Ident.serial (i + 1)) ∧
      (∀ a ∈ final.idsOf (Ident.ofNat 2), ∀ b ∈ final.idsOf (Ident.ofNat 2),
        (σ a).bits < (σ b).bits ↔ a.bits < b.bits) ∧
      (Forest.empty {}).replies
          ((acmeBetaCalls.filter (·.tenant == Ident.ofNat 2)).map (Call.relabel σ)) =
        ((acmeBetaCalls.zip ((Forest.empty {}).replies acmeBetaCalls)).filter
          (·.1.tenant == Ident.ofNat 2)).map fun p => relabelResult σ (Reply.relabel σ) p.2) :=
  ⟨by decide, by decide, tenant_answers_independent (by decide) _ _ (by decide)⟩

end Forest

end TenantForest

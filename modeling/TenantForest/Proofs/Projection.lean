import TenantForest.Proofs.Keys
import TenantForest.Service.Relabel

/-!
# One tenant's view of a store

Identifiers come from one counter shared by every tenant, so the units of a tenant `t`
get different identifiers when other tenants are served in between. `Store.project σ t`
is the store as a run of `t`'s calls alone leaves it, when `σ` maps every identifier the
shared counter gave to the one the counter of `t` alone would give: the units of `t`,
renamed by `σ`, with as many identifiers issued as `t` has units.

The lemmas of this module carry every store operation across the projection: for an
injective `σ`, an operation asked of the projection about `σ x` answers what the store
answers about `x`, renamed. `Mirrors` says this of a computation that runs in place: run
on the projection, it has the outcome it has on the store, renamed, and it leaves the
projection of the state it leaves.

  §1 Renaming — the parts of requests, writes and claims that name units, renamed.
  §2 Mirrored runs — `Mirrors`, and how it passes through the combinators of `InPlace`.
  §3 Lookups — finding units, their children, their owner and the claims on names.
  §4 Writes — the checks of an insert and of a commit, and the writes themselves.
  §5 Dependents and forests — the counts of the tenant, and the projected forest.
-/

namespace TenantForest

/-! ## §1 Renaming -/

section Renaming

variable (σ : Ident → Ident)

/-- A result with its value mapped by `g` and the units its fault names renamed. -/
def relabelResult {α β : Type} (g : α → β) : Except Fault α → Except Fault β
  | .ok a => .ok (g a)
  | .error e => .error (e.relabel σ)

/-- The draft with its parent renamed. -/
def Draft.relabel (d : Draft) : Draft := { d with parent := d.parent.map σ }

/-- The edit with the parent it sets renamed; the writing actor is no unit. -/
def Edit.relabel (c : Edit) : Edit := { c with parent := c.parent.map (Option.map σ) }

/-- The cascade row with its unit renamed. -/
def Placement.relabel (r : Placement) : Placement := { r with id := σ r.id }

/-- The change with its head, its edit and its rows renamed. -/
def Change.relabel (c : Change) : Change :=
  { c with id := σ c.id, edit := c.edit.relabel σ, cascade := c.cascade.map (Placement.relabel σ) }

/-- The scope with the parent it names renamed. -/
def NameScope.relabel : NameScope → NameScope
  | .global => .global
  | .tenant u => .tenant u
  | .siblings u parent => .siblings u (parent.map σ)

/-- The claim with its scope and the unit it excludes renamed. -/
def NameClaim.relabel (q : NameClaim) : NameClaim :=
  { q with scope := q.scope.relabel σ, exclude := q.exclude.map σ }

end Renaming

/-- The scope lies within tenant `t`: a claim in it is about units of `t` only. -/
def NameScope.InTenant (t : Ident) : NameScope → Prop
  | .global => False
  | .tenant u => u = t
  | .siblings u _ => u = t

variable {σ : Ident → Ident}

@[simp] theorem relabelResult_ok {α β : Type} (g : α → β) (a : α) :
    relabelResult σ g (.ok a) = .ok (g a) := rfl

@[simp] theorem relabelResult_error {α β : Type} (g : α → β) (e : Fault) :
    relabelResult σ g (.error e : Except Fault α) = .error (e.relabel σ) := rfl

namespace Entity

variable (σ) (e : Entity)

@[simp] theorem relabel_id : (e.relabel σ).id = σ e.id := rfl
@[simp] theorem relabel_tenant : (e.relabel σ).tenant = e.tenant := rfl
@[simp] theorem relabel_name : (e.relabel σ).name = e.name := rfl
@[simp] theorem relabel_kind : (e.relabel σ).kind = e.kind := rfl
@[simp] theorem relabel_parent : (e.relabel σ).parent = e.parent.map σ := rfl
@[simp] theorem relabel_path : (e.relabel σ).path = e.path := rfl
@[simp] theorem relabel_level : (e.relabel σ).level = e.level := rfl
@[simp] theorem relabel_state : (e.relabel σ).state = e.state := rfl
@[simp] theorem relabel_version : (e.relabel σ).version = e.version := rfl
@[simp] theorem isActive_relabel : (e.relabel σ).isActive = e.isActive := rfl
@[simp] theorem activeIn_relabel (t : Ident) : (e.relabel σ).activeIn t = e.activeIn t := rfl

@[simp] theorem isRoot_relabel : (e.relabel σ).isRoot = e.isRoot := by
  simp [isRoot]

end Entity

/-- An injective renaming keeps apart the parents it renames. -/
theorem map_eq_map_iff (hσ : Function.Injective σ) {a b : Option Ident} :
    a.map σ = b.map σ ↔ a = b :=
  (Option.map_injective hσ).eq_iff

/-- An injective renaming keeps identifiers apart, as the comparison the code makes. -/
theorem beq_relabel (hσ : Function.Injective σ) (a b : Ident) : (σ a == σ b) = (a == b) := by
  rw [Bool.eq_iff_iff, beq_iff_eq, beq_iff_eq]
  exact hσ.eq_iff

/-- The same for parents. -/
theorem beq_map_map (hσ : Function.Injective σ) (a b : Option Ident) :
    (a.map σ == b.map σ) = (a == b) := by
  rw [Bool.eq_iff_iff, beq_iff_eq, beq_iff_eq]
  exact map_eq_map_iff hσ

@[simp] theorem Draft.settle_relabel (d : Draft) (id : Ident) :
    (d.relabel σ).settle (σ id) = (d.settle id).relabel σ := rfl

@[simp] theorem Placement.relabel_id (r : Placement) : (r.relabel σ).id = σ r.id := rfl

theorem Placement.apply_relabel (r : Placement) (e : Entity) :
    (r.relabel σ).apply (e.relabel σ) = (r.apply e).relabel σ := rfl

theorem stamp_relabel (c : Edit) (e : Entity) :
    Store.stamp (c.relabel σ) (e.relabel σ) = (Store.stamp c e).relabel σ := by
  cases h : c.parent <;> simp [Store.stamp, Edit.apply, Edit.relabel, Entity.relabel, h]

@[simp] theorem NameClaim.relabel_name (q : NameClaim) : (q.relabel σ).name = q.name := rfl

/-- Renaming a claim and a unit together does not change whether the unit holds it. -/
theorem NameClaim.heldBy_relabel (hσ : Function.Injective σ) (q : NameClaim) (e : Entity) :
    (q.relabel σ).heldBy (e.relabel σ) = q.heldBy e := by
  have hex : (q.exclude.map σ != some (σ e.id)) = (q.exclude != some e.id) := by
    simp only [bne]
    rw [← beq_map_map hσ q.exclude (some e.id)]
    rfl
  rcases q with ⟨name, scope, exclude⟩
  cases scope <;>
    simp only [heldBy, relabel, NameScope.relabel, Entity.relabel_name, Entity.relabel_tenant,
      Entity.relabel_parent, Entity.relabel_id] at hex ⊢ <;> rw [hex]
  rw [beq_map_map hσ]

/-- A claim within tenant `t` is held by no unit of another tenant. -/
theorem NameClaim.heldBy_of_tenant_ne {t : Ident} {q : NameClaim} (hq : q.scope.InTenant t)
    {e : Entity} (he : e.tenant ≠ t) : q.heldBy e = false := by
  rcases q with ⟨name, scope, exclude⟩
  cases scope <;> simp_all [heldBy, NameScope.InTenant]

/-! ## §2 Mirrored runs -/

section Mirror

variable {S T α β γ δ : Type} (σ) (p : S → T)

/-- Run on the image `p s` of the state `s`, `m'` does what `m` does from `s`: the same
outcome, its value mapped by `g` and its fault renamed by `σ`, and it leaves the image of
the state `m` leaves. -/
def Mirrors (s : S) (g : α → β) (m : InPlace S α) (m' : InPlace T β) : Prop :=
  m'.run (p s) = match m.run s with
    | .ok a s' => .ok (g a) (p s')
    | .error e s' => .error (e.relabel σ) (p s')

variable {σ p} {s : S} {g : α → β} {h : γ → δ}

theorem Mirrors.pure (a : α) : Mirrors σ p s g (Pure.pure a) (Pure.pure (g a)) := rfl

theorem Mirrors.throw (e : Fault) :
    Mirrors σ p s g (MonadExcept.throw e : InPlace S α) (MonadExcept.throw (e.relabel σ)) := rfl

theorem Mirrors.check (r : Except Fault α) :
    Mirrors σ p s g (InPlace.check r) (InPlace.check (relabelResult σ g r)) := by
  cases r <;> rfl

/-- A mirrored step followed by continuations that mirror each other from every state the
step can leave. -/
theorem Mirrors.bind {m : InPlace S α} {m' : InPlace T β} {k : α → InPlace S γ}
    {k' : β → InPlace T δ} (hm : Mirrors σ p s g m m')
    (hk : ∀ a s', m.run s = .ok a s' → Mirrors σ p s' h (k a) (k' (g a))) :
    Mirrors σ p s h (m >>= k) (m' >>= k') := by
  unfold Mirrors at hm ⊢
  rw [EStateM.run_bind, EStateM.run_bind, hm]
  cases hr : m.run s with
  | ok a s' => exact hk a s' hr
  | error e s' => rfl

/-- A check that passes in both runs, or fails in both with the renamed fault, followed by
continuations that mirror each other. -/
theorem Mirrors.check_bind {r : Except Fault α} {r' : Except Fault β} {k : α → InPlace S γ}
    {k' : β → InPlace T δ} (hr : r' = relabelResult σ g r)
    (hk : ∀ a, r = .ok a → Mirrors σ p s h (k a) (k' (g a))) :
    Mirrors σ p s h (InPlace.check r >>= k) (InPlace.check r' >>= k') := by
  subst hr
  cases r with
  | ok a => exact hk a rfl
  | error e => rfl

/-- Reading the state reads its image on the other side. -/
theorem Mirrors.getThe_bind {k : S → InPlace S γ} {k' : T → InPlace T δ}
    (hk : Mirrors σ p s h (k s) (k' (p s))) :
    Mirrors σ p s h (getThe S >>= k) (getThe T >>= k') := hk

theorem Mirrors.modifyThe {u : S → S} {u' : T → T} (hu : u' (p s) = p (u s)) :
    Mirrors σ p s id (modifyThe S u) (modifyThe T u') := by
  simp only [Mirrors, InPlace.run_modifyThe, hu, id]

theorem Mirrors.modify {u : S → S} {u' : T → T} (hu : u' (p s) = p (u s)) :
    Mirrors σ p s id (modify u) (modify u') := by
  simp only [Mirrors, EStateM.run_modify, hu, id]

theorem Mirrors.modifyGet {u : S → α × S} {u' : T → β × T}
    (hu : u' (p s) = (g (u s).1, p (u s).2)) :
    Mirrors σ p s g (modifyGet u) (modifyGet u') := by
  simp only [Mirrors, EStateM.run_modifyGet, hu]

theorem Mirrors.map {m : InPlace S α} {m' : InPlace T β} {f : α → γ} {f' : β → δ}
    (hm : Mirrors σ p s g m m') (hf : ∀ a, f' (g a) = h (f a)) :
    Mirrors σ p s h (f <$> m) (f' <$> m') := by
  unfold Mirrors at hm ⊢
  rw [InPlace.run_map, InPlace.run_map, hm]
  cases m.run s <;> simp [hf]

end Mirror

/-! ## §3 Lookups -/

namespace Store

variable (σ) in
/-- The units of tenant `t` renamed by `σ`, with as many identifiers issued as `t` has
units: the store as the calls of `t` alone leave it. -/
def project (t : Ident) (s : Store) : Store :=
  { entities := (s.entities.filter (fun e => e.tenant == t)).map (Entity.relabel σ)
    issued := (s.entities.filter (fun e => e.tenant == t)).length }

variable {t : Ident} {s : Store}

@[simp] theorem entities_project :
    (s.project σ t).entities = (s.entities.filter (fun e => e.tenant == t)).map (Entity.relabel σ) :=
  rfl

@[simp] theorem issued_project :
    (s.project σ t).issued = (s.entities.filter (fun e => e.tenant == t)).length := rfl

/-- The projection of a keyed store holds distinct identifiers. -/
theorem nodup_project (hσ : Function.Injective σ) (hk : s.Keyed) :
    ((s.project σ t).entities.map Entity.id).Nodup := by
  have hsub : ((s.entities.filter (fun e => e.tenant == t)).map Entity.id).Nodup :=
    hk.nodup.sublist (List.filter_sublist.map _)
  simpa [List.map_map, Function.comp_def] using hsub.map hσ

/-- The projection finds, under `σ x`, the unit the store finds under `x` when it belongs to
`t`, renamed. -/
theorem find?_project (hσ : Function.Injective σ) (hk : s.Keyed) (x : Ident) :
    (s.project σ t).find? (σ x) =
      ((s.find? x).filter (fun e => e.tenant == t)).map (Entity.relabel σ) := by
  refine Option.ext fun e' => ?_
  rw [find?, find?_id_eq_some_iff (nodup_project hσ hk), Option.map_eq_some_iff]
  simp only [Option.filter_eq_some_iff, hk.find?_eq_some_iff, entities_project, List.mem_map,
    List.mem_filter, beq_iff_eq]
  constructor
  · rintro ⟨⟨e, ⟨he, ht⟩, rfl⟩, hid⟩
    exact ⟨e, ⟨⟨he, hσ hid⟩, ht⟩, rfl⟩
  · rintro ⟨e, ⟨⟨he, rfl⟩, ht⟩, rfl⟩
    exact ⟨⟨e, ⟨he, ht⟩, rfl⟩, rfl⟩

/-- The projection's active unit `σ x` of `t` is the store's active unit `x` of `t`,
renamed. -/
theorem active?_project (hσ : Function.Injective σ) (hk : s.Keyed) (x : Ident) :
    (s.project σ t).active? (σ x) t = (s.active? x t).map (Entity.relabel σ) := by
  rw [active?, find?_project hσ hk, Option.filter_map, active?, Option.filter_filter]
  congr 2
  funext e
  simp only [Function.comp_apply, Entity.activeIn]
  by_cases h : e.tenant = t <;> simp [h]

theorem getActive_project (hσ : Function.Injective σ) (hk : s.Keyed) (x : Ident) :
    (s.project σ t).getActive (σ x) t = relabelResult σ (Entity.relabel σ) (s.getActive x t) := by
  unfold getActive
  rw [active?_project hσ hk]
  cases s.active? x t <;> rfl

/-- The active units of `t` in the projection are those of the store, renamed, in order. -/
theorem activeOf_project : (s.project σ t).activeOf t = (s.activeOf t).map (Entity.relabel σ) := by
  simp only [activeOf, entities_project, List.filter_map, List.filter_filter]
  congr 1
  refine List.filter_congr fun e _ => ?_
  simp only [Function.comp_apply, Entity.activeIn]
  by_cases h : e.tenant = t <;> simp [h]

theorem isChildOf_relabel (hσ : Function.Injective σ) (x : Ident) (e : Entity) :
    isChildOf (σ x) (e.relabel σ) = isChildOf x e := by
  simp only [isChildOf, Entity.relabel_parent]
  exact beq_map_map hσ e.parent (some x)

theorem splitChildren_relabel (hσ : Function.Injective σ) (x : Ident) (pool : List Entity) :
    splitChildren (σ x) (pool.map (Entity.relabel σ)) =
      ((splitChildren x pool).1.map (Entity.relabel σ), (splitChildren x pool).2.map (Entity.relabel σ)) := by
  simp only [splitChildren, List.filter_map, Function.comp_def, isChildOf_relabel hσ]

theorem childrenOf_project (hσ : Function.Injective σ) (x : Ident) :
    (s.project σ t).childrenOf (σ x) t = (s.childrenOf x t).map (Entity.relabel σ) := by
  simp only [childrenOf, activeOf_project, List.filter_map, Function.comp_def,
    isChildOf_relabel hσ]

theorem countChildren_project (hσ : Function.Injective σ) (x : Ident) :
    (s.project σ t).countChildren (σ x) t = s.countChildren x t := by
  simp [countChildren, childrenOf_project hσ]

/-- Where every stored unit named `x` belongs to `t`, the projection tells the owner of `σ x`
as the store tells the owner of `x`. -/
theorem locate_project (hσ : Function.Injective σ) (hk : s.Keyed) {x : Ident}
    (hx : ∀ e ∈ s.entities, e.id = x → e.tenant = t) :
    (s.project σ t).locate (σ x) = s.locate x := by
  unfold locate
  rw [find?_project hσ hk]
  cases hf : s.find? x with
  | none => rfl
  | some e =>
    obtain ⟨he, hid⟩ := hk.find?_eq_some_iff.1 hf
    have ht : e.tenant = t := hx e he hid
    cases ha : e.isActive <;> simp [Option.filter, ht, ha]

/-- A claim within `t` is taken in the projection exactly when it is taken in the store. -/
theorem nameInUse_project (hσ : Function.Injective σ) {q : NameClaim} (hq : q.scope.InTenant t) :
    (s.project σ t).nameInUse (q.relabel σ) = s.nameInUse q := by
  simp only [nameInUse, entities_project, List.any_map, List.any_filter, Function.comp_def,
    Entity.isActive_relabel, NameClaim.heldBy_relabel hσ]
  congr 1
  funext e
  by_cases ht : e.tenant = t
  · simp [ht]
  · simp [NameClaim.heldBy_of_tenant_ne hq ht]

theorem checkClaim_project (hσ : Function.Injective σ) {claim : Option NameClaim}
    (hq : ∀ q ∈ claim, q.scope.InTenant t) :
    (s.project σ t).checkClaim (claim.map (NameClaim.relabel σ)) =
      relabelResult σ id (s.checkClaim claim) := by
  cases claim with
  | none => rfl
  | some q =>
    simp only [checkClaim, Option.map_some, nameInUse_project hσ (hq q rfl), NameClaim.relabel_name]
    cases s.nameInUse q <;> rfl

/-! ## §4 Writes -/

/-- The checks of an insert of a draft of `t` pass in the projection as they do in the
store. -/
theorem allows_project (hσ : Function.Injective σ) (hk : s.Keyed) {d : Draft} (hd : d.tenant = t)
    {claim : Option NameClaim} (hq : ∀ q ∈ claim, q.scope.InTenant t) :
    (s.project σ t).allows (d.relabel σ) (claim.map (NameClaim.relabel σ)) =
      relabelResult σ id (s.allows d claim) := by
  unfold allows
  rw [checkClaim_project hσ hq]
  cases s.checkClaim claim with
  | error e => rfl
  | ok u =>
    cases hp : d.parent with
    | none => simp [Draft.relabel, hp, bind, Except.bind, pure, Except.pure]
    | some p =>
      have hparent : (d.relabel σ).parent = some (σ p) := by simp [Draft.relabel, hp]
      have htenant : (d.relabel σ).tenant = t := hd
      simp only [relabelResult_ok, hparent, htenant, hd, active?_project hσ hk, Option.isNone_map,
        bind, Except.bind]
      cases (s.active? p t).isNone <;> rfl

/-- Placing a draft of `t` in the projection places it renamed, when `σ` gives the new
unit the identifier the counter of `t` alone gives it. -/
theorem place_project {d : Draft} (hd : d.tenant = t)
    (hnext : σ (Ident.serial (s.issued + 1)) = Ident.serial ((s.project σ t).issued + 1)) :
    (s.project σ t).place (d.relabel σ) = ((s.place d).1.relabel σ, (s.place d).2.project σ t) := by
  have hkeep : ((d.settle (Ident.serial (s.issued + 1))).tenant == t) = true := by
    simp [Draft.settle, hd]
  rw [issued_project] at hnext
  simp only [place, project, ← hnext, Draft.settle_relabel, List.filter_append, List.filter_cons,
    hkeep, if_true, List.filter_nil, List.map_append, List.map_cons, List.map_nil,
    List.length_append, List.length_cons, List.length_nil, Nat.zero_add]

/-- Editing a unit in a way that keeps its tenant, in the projection and in the store. -/
theorem modify_project (hσ : Function.Injective σ) (x : Ident) {g g' : Entity → Entity}
    (hg : ∀ e, (g e).tenant = e.tenant) (hg' : ∀ e, g' (e.relabel σ) = (g e).relabel σ) :
    (s.project σ t).modify (σ x) g' = (s.modify x g).project σ t := by
  -- the edit keeps tenants, so it commutes with keeping the units of `t`
  have hfilter : (s.entities.map fun e => if e.id == x then g e else e).filter
        (fun e => e.tenant == t) =
      (s.entities.filter fun e => e.tenant == t).map fun e => if e.id == x then g e else e := by
    rw [List.filter_map]
    congr 1
    refine List.filter_congr fun e _ => ?_
    simp only [Function.comp_apply]
    split <;> simp [hg]
  simp only [modify, project, hfilter, List.map_map, List.length_map]
  congr 1
  refine List.map_congr_left fun e _ => ?_
  simp only [Function.comp_apply, Entity.relabel_id, beq_iff_eq, hσ.eq_iff]
  split <;> simp [hg']

@[simp] theorem Placement.relabel_expected (r : Placement) : (r.relabel σ).expected = r.expected :=
  rfl

/-- Writing renamed rows in the projection writes the rows in the store. -/
theorem writeRows_project (hσ : Function.Injective σ) (rows : List Placement) :
    (s.project σ t).writeRows (rows.map (Placement.relabel σ)) = (s.writeRows rows).project σ t := by
  induction rows generalizing s with
  | nil => rfl
  | cons r rs ih =>
    simp only [List.map_cons, writeRows, Placement.relabel_id]
    rw [modify_project hσ r.id (fun e => (r.relocated_apply e).tenant_eq)
      (Placement.apply_relabel r), ih]

theorem checkVersion_project (hσ : Function.Injective σ) (hk : s.Keyed) (x : Ident) (v : Int) :
    (s.project σ t).checkVersion (σ x) t v = relabelResult σ id (s.checkVersion x t v) := by
  unfold checkVersion
  rw [active?_project hσ hk]
  cases s.active? x t with
  | none => rfl
  | some e => cases h : e.version == v <;> simp [h, Fault.relabel]

theorem checkRows_project (hσ : Function.Injective σ) (hk : s.Keyed) (rows : List Placement) :
    (s.project σ t).checkRows t (rows.map (Placement.relabel σ)) =
      relabelResult σ id (s.checkRows t rows) := by
  induction rows with
  | nil => rfl
  | cons r rs ih =>
    simp only [List.map_cons, checkRows, Placement.relabel_id, Placement.relabel_expected,
      checkVersion_project hσ hk]
    cases s.checkVersion r.id t r.expected with
    | error e => rfl
    | ok u => exact ih

@[simp] theorem Change.relabel_tenant (c : Change) : (c.relabel σ).tenant = c.tenant := rfl
@[simp] theorem Change.relabel_id (c : Change) : (c.relabel σ).id = σ c.id := rfl
@[simp] theorem Change.relabel_expected (c : Change) : (c.relabel σ).expected = c.expected := rfl
@[simp] theorem Change.relabel_edit (c : Change) : (c.relabel σ).edit = c.edit.relabel σ := rfl
@[simp] theorem Change.relabel_cascade (c : Change) :
    (c.relabel σ).cascade = c.cascade.map (Placement.relabel σ) := rfl

/-- The checks of a commit to `t` pass in the projection as they do in the store. -/
theorem vet_project (hσ : Function.Injective σ) (hk : s.Keyed) {c : Change} (hc : c.tenant = t)
    {claim : Option NameClaim} (hq : ∀ q ∈ claim, q.scope.InTenant t) :
    (s.project σ t).vet (c.relabel σ) (claim.map (NameClaim.relabel σ)) =
      relabelResult σ id (s.vet c claim) := by
  unfold vet
  rw [checkClaim_project hσ hq]
  cases s.checkClaim claim with
  | error e => rfl
  | ok u =>
    simp only [bind, Except.bind, Change.relabel_tenant, Change.relabel_id,
      Change.relabel_expected, Change.relabel_cascade, hc, checkVersion_project hσ hk,
      checkRows_project hσ hk]
    cases s.checkVersion c.id t c.expected <;> rfl

/-- An insert of a draft of `t` runs in the projection as in the store, when `σ` gives the
new unit the identifier the counter of `t` alone gives it. -/
theorem mirrors_insert (hσ : Function.Injective σ) (hk : s.Keyed) {d : Draft} (hd : d.tenant = t)
    {claim : Option NameClaim} (hq : ∀ q ∈ claim, q.scope.InTenant t)
    (hnext : s.allows d claim = .ok () →
      σ (Ident.serial (s.issued + 1)) = Ident.serial ((s.project σ t).issued + 1)) :
    Mirrors σ (project σ t) s (Entity.relabel σ) (insert d claim)
      (insert (d.relabel σ) (claim.map (NameClaim.relabel σ))) := by
  unfold insert
  refine Mirrors.getThe_bind ?_
  refine Mirrors.check_bind (allows_project hσ hk hd hq) fun _ hal => ?_
  exact Mirrors.modifyGet (place_project hd (hnext hal))

/-- A commit to `t` runs in the projection as in the store. -/
theorem mirrors_commit (hσ : Function.Injective σ) (hk : s.Keyed) {c : Change} (hc : c.tenant = t)
    {claim : Option NameClaim} (hq : ∀ q ∈ claim, q.scope.InTenant t) :
    Mirrors σ (project σ t) s (Entity.relabel σ) (commit c claim)
      (commit (c.relabel σ) (claim.map (NameClaim.relabel σ))) := by
  unfold commit
  refine Mirrors.getThe_bind ?_
  refine Mirrors.check_bind (vet_project hσ hk hc hq) fun _ hvet => ?_
  simp only [Change.relabel_cascade, Change.relabel_id, Change.relabel_edit]
  refine Mirrors.bind (Mirrors.modifyThe (writeRows_project hσ c.cascade)) fun _ s' hs' => ?_
  obtain rfl : s' = s.writeRows c.cascade := by
    simp only [InPlace.run_modifyThe, EStateM.Result.ok.injEq] at hs'
    exact hs'.2.symm
  refine Mirrors.getThe_bind ?_
  -- the head passed its check, so both runs find it, in `t`, with its rows applied
  obtain ⟨e, he⟩ := (vet_ok hvet).1
  obtain ⟨hmem, hid, hten, -⟩ := mem_of_active? he
  have hfind : (s.writeRows c.cascade).find? c.id = some (rowsApplied c.cascade e) := by
    rw [find?_writeRows, ← hid, hk.find?_of_mem hmem]
    rfl
  have hkeep : ((rowsApplied c.cascade e).tenant == t) = true := by
    simp [(relocated_rowsApplied c.cascade e).tenant_eq, hten, hc]
  rw [find?_project hσ (hk.writeRows _), hfind]
  simp only [Option.filter_some, hkeep, if_true, Option.map_some]
  refine Mirrors.bind (Mirrors.modifyThe (modify_project hσ c.id
    (fun e => (rfl : (stamp c.edit e).tenant = e.tenant)) (stamp_relabel c.edit))) fun _ _ _ => ?_
  rw [stamp_relabel]
  exact Mirrors.pure _

end Store

/-! ## §5 Dependents and forests -/

/-- Searches with predicates that agree on the list find the same element. -/
theorem find?_congr {α : Type} {p q : α → Bool} {l : List α} (h : ∀ a ∈ l, p a = q a) :
    l.find? p = l.find? q := by
  induction l with
  | nil => rfl
  | cons a l ih =>
    simp only [List.find?_cons, h a List.mem_cons_self, ih fun b hb => h b (List.mem_cons_of_mem _ hb)]

namespace Dependents

variable (σ) in
/-- The counts of tenant `t`, with their units renamed. -/
def project (t : Ident) (d : Dependents) : Dependents :=
  ⟨(d.counts.filter (fun entry => entry.1.1 == t)).map
    (fun entry => ((entry.1.1, σ entry.1.2), entry.2))⟩

variable {t : Ident}

theorem count_project (hσ : Function.Injective σ) (d : Dependents) (x : Ident) :
    (d.project σ t).count t (σ x) = d.count t x := by
  have hfind : ((d.counts.filter fun entry => entry.1.1 == t).map
        (fun entry => ((entry.1.1, σ entry.1.2), entry.2))).find?
          (fun entry => entry.1 == (t, σ x)) =
      (d.counts.find? fun entry => entry.1 == (t, x)).map
        (fun entry => ((entry.1.1, σ entry.1.2), entry.2)) := by
    rw [List.find?_map, List.find?_filter]
    congr 1
    refine find?_congr fun entry _ => ?_
    simp only [Function.comp_apply]
    by_cases h : entry.1.1 = t <;> rw [Bool.eq_iff_iff] <;> simp [h, hσ.eq_iff, Prod.ext_iff]
  simp only [count, project, hfind]
  cases d.counts.find? (fun entry => entry.1 == (t, x)) <;> rfl

theorem set_project (hσ : Function.Injective σ) (d : Dependents) (x : Ident) (n : Nat) :
    (d.set t x n).project σ t = (d.project σ t).set t (σ x) n := by
  have hrest : ((d.counts.filter fun entry => entry.1 != (t, x)).filter
        fun entry => entry.1.1 == t).map (fun entry => ((entry.1.1, σ entry.1.2), entry.2)) =
      ((d.counts.filter fun entry => entry.1.1 == t).map
        (fun entry => ((entry.1.1, σ entry.1.2), entry.2))).filter
          fun entry => entry.1 != (t, σ x) := by
    rw [List.filter_filter, List.filter_map, List.filter_filter]
    congr 1
    refine List.filter_congr fun entry _ => ?_
    by_cases h : entry.1.1 = t <;> rw [Bool.eq_iff_iff] <;> simp [h, hσ.eq_iff, Prod.ext_iff]
  unfold set project
  by_cases hn : n = 0
  · simp only [hn, ↓reduceIte, hrest]
  · simp only [hn, ↓reduceIte, List.filter_cons, beq_self_eq_true, List.map_cons, hrest]

theorem set_project_of_ne {u : Ident} (hu : u ≠ t) (d : Dependents) (x : Ident) (n : Nat) :
    (d.set u x n).project σ t = d.project σ t := by
  have hrest : (d.counts.filter fun entry => entry.1 != (u, x)).filter
      (fun entry => entry.1.1 == t) = d.counts.filter fun entry => entry.1.1 == t := by
    rw [List.filter_filter]
    refine List.filter_congr fun entry _ => ?_
    by_cases h : entry.1.1 = t
    · have hne : entry.1 ≠ (u, x) := fun h' => hu (by rw [← h, h'])
      simp [h, hne]
    · simp [h]
  have hother : ((u, x).1 == t) = false := by simp [hu]
  unfold set project
  by_cases hn : n = 0
  · simp only [hn, ↓reduceIte, hrest]
  · simp only [hn, ↓reduceIte, List.filter_cons, hother, hrest, Bool.false_eq_true]

end Dependents

namespace Forest

variable (σ) in
/-- The forest as the calls of `t` alone leave it: the same settings, the projected store and
the projected counts. -/
def project (t : Ident) (f : Forest) : Forest :=
  { settings := f.settings, store := f.store.project σ t, dependents := f.dependents.project σ t }

variable {t : Ident} {f : Forest}

@[simp] theorem settings_project : (f.project σ t).settings = f.settings := rfl
@[simp] theorem store_project : (f.project σ t).store = f.store.project σ t := rfl
@[simp] theorem dependents_project : (f.project σ t).dependents = f.dependents.project σ t := rfl

/-- The empty forest is its own projection. -/
theorem project_empty (st : Settings) : (Forest.empty st).project σ t = Forest.empty st := rfl

/-- A store write mirrored on the forest's store is mirrored on the forest. -/
theorem mirrors_onStore {α β : Type} {m : InPlace Store α} {m' : InPlace Store β} {g : α → β}
    (h : Mirrors σ (Store.project σ t) f.store g m m') :
    Mirrors σ (Forest.project σ t) f g (onStore m) (onStore m') := by
  unfold Mirrors at h ⊢
  unfold onStore
  rw [InPlace.run_getThe_bind, InPlace.run_getThe_bind, store_project, h]
  cases m.run f.store <;> rfl

end Forest

end TenantForest

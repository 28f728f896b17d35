import TenantForest.Proofs.Relocation
import TenantForest.Proofs.Names
import TenantForest.Proofs.DescendantOrder

/-!
# How a move is decided

A move of the unit `x` of tenant `t` below `target` (a unit, or the roots) makes its checks in
a fixed order, and the first that fails decides the answer. In a reachable forest, under a
depth bound between 0 and the largest 32-bit integer, every check reads as a condition on the
forest itself, and `MoveVerdict` lists them, first match first:

1. `x` is no active unit of `t`: `unitMissing`;
2. the target is `x`: `underItself`;
3. the target `p` is no active unit of `t`: `parentElsewhere` when it is an active unit of
   another tenant, `parentMissing` otherwise;
4. `p` descends from `x`: `underDescendant`;
5. the target is the current parent: the unit comes back and the forest stays as it is;
6. the new level `L` (0 for a root, one below `p`) is deeper than the maximum depth: `tooDeep`;
7. the name clashes at the destination with another active unit under the naming policy:
   `nameTaken`;
8. a descendant `D` would sit deeper than the maximum depth, at `L + (D.level - x.level)`:
   `tooDeep` at that level;
9. otherwise the move goes through, with the new parent and the path and level derived below
   it.

Main statement: `move_follows_decision_list`. It adds that a move is refused as a cycle exactly
when `x` is active and the target is `x` or one of its descendants.

The guards against corrupt data never fire in a shaped store: the ancestor climb from an active
target follows its root path, so it succeeds and meets `x` exactly when the target descends
from `x` (`wouldCycle_iff`); the cascade plan derives every descendant one level below its
parent, so the level it checks for `D` is `L + (D.level - x.level)` (`planRows_levels`); and
the checks of the commit repeat checks that passed (`commit_of_vet`).

  §1 The destination.
  §2 The name claim.
  §3 The levels of a cascade.
  §4 The commit.
  §5 The decision list.
-/

namespace TenantForest

namespace Store

variable {s : Store} {t : Ident}

/-! ## §1 The destination -/

/-- A unit on the root path of `p` is `p` or a unit that `p` descends from. -/
theorem RootPath.descends_of_mem {p : Ident} {c : List Entity} (h : s.RootPath t p c)
    {e : Entity} (he : e ∈ c) : e.id = p ∨ s.Descends t p e.id := by
  induction h with
  | @root x e₀ he₀ _ =>
    rw [List.mem_singleton.1 he]
    exact .inl (mem_of_active? he₀).2.1
  | @climb x q e₀ c he₀ hq _ ih =>
    rcases List.mem_cons.1 he with rfl | he
    · exact .inl (mem_of_active? he₀).2.1
    · have link : s.ParentLink t x q := ⟨e₀, he₀, hq⟩
      rcases ih he with hid | hd
      · exact .inr (hid ▸ .parent link)
      · exact .inr (.climb link hd)

/-- A unit that descends from another is an active unit of the tenant. -/
theorem Descends.active {x a : Ident} (h : s.Descends t x a) : ∃ e, s.active? x t = some e := by
  cases h with
  | parent link => exact ⟨_, link.choose_spec.1⟩
  | climb link _ => exact ⟨_, link.choose_spec.1⟩

/-- A target that is neither `x` nor an active unit of the tenant asks for no cycle. -/
theorem not_cycle_of_inactive {x p : Ident} (hpx : p ≠ x) (hp : s.active? p t = none) :
    ¬ (p = x ∨ s.Descends t p x) := by
  rintro (rfl | hd)
  · exact hpx rfl
  · obtain ⟨e, he⟩ := hd.active
    rw [hp] at he
    cases he

end Store

namespace Settings

/-- A depth check refuses a level deeper than the maximum depth, naming the level. -/
theorem checkDepth_error_eq {st : Settings} {level : Int} {e : Fault}
    (h : st.checkDepth level = .error e) :
    e = .tooDeep level st.maxDepth ∧ st.maxDepth < level := by
  unfold checkDepth at h
  split at h
  · rename_i hgt
    cases h
    exact ⟨rfl, hgt⟩
  · cases h

end Settings

namespace Forest

open Store

variable {f : Forest} {t : Ident}

/-- A target that is no active unit of the tenant is refused as a unit of another tenant when
it is an active unit there, and as missing otherwise. -/
theorem resolveParent_of_none {p : Ident} (h : f.store.active? p t = none) :
    (f.resolveParent p t = .error (.parentElsewhere p) ∧
        ∃ o, o ≠ t ∧ (f.store.active? p o).isSome) ∨
      (f.resolveParent p t = .error (.parentMissing p) ∧ ∀ o, f.store.active? p o = none) := by
  unfold resolveParent locate
  rw [h]
  cases hf : f.store.find? p with
  | none =>
    right
    exact ⟨rfl, fun o => by simp [active?, hf]⟩
  | some P =>
    cases hact : P.isActive with
    | false =>
      right
      exact ⟨by simp [Option.filter_some, hact],
        fun o => by simp [active?, hf, Entity.activeIn, hact]⟩
    | true =>
      -- an active unit that is not active in `t` belongs to another tenant
      have hten : P.tenant ≠ t := by
        intro ht
        simp [active?, hf, Entity.activeIn, ht, hact] at h
      left
      exact ⟨by simp [Option.filter_some, hact, hten], P.tenant, hten,
        by simp [active?, hf, Entity.activeIn, hact]⟩

/-- In a shaped store under the bound, the cycle check of a move of `x` below an active unit
`p` other than `x` climbs from `p` to a root, and finds a cycle exactly when `p` descends from
`x`. -/
theorem wouldCycle_iff (hs : f.store.Shaped f.settings) (h0 : 0 ≤ f.settings.maxDepth)
    (h1 : f.settings.maxDepth < 2 ^ 31 - 1) {x p : Ident} {P : Entity}
    (hP : f.store.active? p t = some P) (hpx : p ≠ x) :
    ∃ b, f.store.wouldCycle f.settings.maxDepth x p t = .ok b ∧
      (b = true ↔ f.store.Descends t p x) := by
  obtain ⟨chain, hc⟩ := ancestry_of_active hs h0 h1 hP
  have hroot := Walk.ancestry_ok hc
  refine ⟨chain.any (fun e => e.id == x), ?_, ?_⟩
  · unfold wouldCycle
    rw [if_neg (by simpa using hpx.symm), hc]
  · simp only [List.any_eq_true, beq_iff_eq]
    constructor
    · rintro ⟨e, he, hex⟩
      rcases hroot.descends_of_mem he with hid | hd
      · exact absurd (hid.symm.trans hex) hpx
      · exact hex ▸ hd
    · exact hroot.mem_of_descends

/-- The destination of a move of `x` below itself. -/
theorem destination_self (x : Ident) : f.destination t x (some x) = .error .underItself := by
  simp [destination, bind, Except.bind, throw, throwThe, MonadExceptOf.throw]

/-- The destination of a move below a target other than `x`, refused when the target is. -/
theorem destination_of_resolveParent_error {x p : Ident} {e : Fault} (hpx : p ≠ x)
    (hr : f.resolveParent p t = .error e) : f.destination t x (some p) = .error e := by
  simp [destination, hpx, hr, bind, Except.bind]

/-- The destination of a move below a target that passed, decided by the cycle check. -/
theorem destination_of_wouldCycle {x p : Ident} {P : Entity} {b : Bool} (hpx : p ≠ x)
    (hr : f.resolveParent p t = .ok P) (hb : f.store.wouldCycle f.settings.maxDepth x p t = .ok b) :
    f.destination t x (some p) = if b then .error .underDescendant else .ok (some P) := by
  cases b <;> simp [destination, hpx, hr, hb, bind, Except.bind, throw, throwThe,
    MonadExceptOf.throw, pure, Except.pure]

/-- A move whose unit or destination is refused is refused with the same fault, and leaves the
forest. -/
theorem move_run_of_getActive_error {actor : Option Ident} {x : Ident} {target : Option Ident}
    {e : Fault} (h : f.store.getActive x t = .error e) :
    (move t actor x target).run f = .error e f := by
  unfold move
  rw [InPlace.run_getThe_bind, h, InPlace.check_error_bind, InPlace.run_throw]

theorem move_run_of_destination_error {actor : Option Ident} {x : Ident} {target : Option Ident}
    {X : Entity} {e : Fault} (hX : f.store.getActive x t = .ok X)
    (h : f.destination t x target = .error e) : (move t actor x target).run f = .error e f := by
  unfold move
  rw [InPlace.run_getThe_bind, hX, InPlace.check_ok_bind, h, InPlace.check_error_bind,
    InPlace.run_throw]

/-! ## §2 The name claim -/

/-- The name of `X`, moved below `target`, clashes under the forest's policy with an active
unit other than `x`. -/
def NameClash (f : Forest) (x : Ident) (X : Entity) (target : Option Ident) : Prop :=
  ∃ b ∈ f.store.entities, b.isActive = true ∧ b.id ≠ x ∧
    f.settings.policy.Clash b { X with parent := target }

/-- A claim the forest refuses is held by an active unit, and the fault names the claimed name
and the policy. -/
theorem ensureAvailable_some_error {q : NameClaim} {e : Fault}
    (h : f.ensureAvailable (some q) = .error e) :
    e = .nameTaken q.name f.settings.policy.name ∧
      ∃ b ∈ f.store.entities, b.isActive = true ∧ q.heldBy b = true := by
  simp only [ensureAvailable] at h
  split at h
  · rename_i hin
    cases h
    simp only [Store.nameInUse, List.any_eq_true, Bool.and_eq_true] at hin
    obtain ⟨b, hb, hact, hheld⟩ := hin
    exact ⟨rfl, b, hb, hact, hheld⟩
  · cases h

/-- A claim the forest refuses is held by an active unit clashing under the policy with every
unit of tenant `t` below `parent` named `name`, and the fault names the name and the policy. -/
theorem claim_error_clash {name : String} {parent ex : Option Ident} {x : Entity} {e : Fault}
    (hx : x.tenant = t ∧ x.parent = parent ∧ x.name = name)
    (h : f.ensureAvailable (f.claimFor name t parent ex) = .error e) :
    e = .nameTaken name f.settings.policy.name ∧
      ∃ b ∈ f.store.entities, b.isActive = true ∧ ex ≠ some b.id ∧ f.settings.policy.Clash b x := by
  obtain ⟨rfl, rfl, rfl⟩ := hx
  unfold claimFor at h
  -- each policy claims the name in the scope its clashes read
  cases hpol : f.settings.policy <;> simp only [hpol] at h
  case none => cases h
  all_goals
    obtain ⟨rfl, b, hb, hact, hheld⟩ := ensureAvailable_some_error h
    simp only [NameClaim.heldBy, Bool.and_eq_true, beq_iff_eq, bne_iff_ne, ne_eq] at hheld
    refine ⟨by rw [hpol], b, hb, hact, hheld.1.2, ?_⟩
    simp only [NamePolicy.Clash]
    simp_all

/-- The claim of a move is refused only when the name clashes at the destination, with the
name and the policy in the fault. -/
theorem claim_move_error {X : Entity} (hX : X.tenant = t) {x : Ident} {target : Option Ident}
    {e : Fault} (h : f.ensureAvailable (f.claimFor X.name t target (some x)) = .error e) :
    e = .nameTaken X.name f.settings.policy.name ∧ f.NameClash x X target := by
  obtain ⟨he, b, hb, hact, hbx, hclash⟩ :=
    claim_error_clash (x := { X with parent := target }) ⟨hX, rfl, rfl⟩ h
  exact ⟨he, b, hb, hact, fun hid => hbx (by rw [hid]), hclash⟩

/-- A claim of a move that passes leaves no clash at the destination. -/
theorem claim_move_ok {X : Entity} (hX : X.tenant = t) {x : Ident} {target : Option Ident}
    (h : f.ensureAvailable (f.claimFor X.name t target (some x)) = .ok ()) :
    ¬ f.NameClash x X target := by
  rintro ⟨b, hb, hact, hbx, hclash⟩
  exact not_clash_of_claim (x := { X with parent := target }) h hb hact
    (by simpa using fun h => hbx h.symm) ⟨hX, rfl, rfl⟩ hclash

/-- A claim the forest lets pass, the store lets pass too. -/
theorem checkClaim_of_ensureAvailable {claim : Option NameClaim}
    (h : f.ensureAvailable claim = .ok ()) : f.store.checkClaim claim = .ok () := by
  cases claim with
  | none => rfl
  | some q =>
    simp only [ensureAvailable] at h
    split at h
    · cases h
    · rename_i hfree
      simp [Store.checkClaim, hfree]

/-! ## §3 The levels of a cascade -/

variable {st : Settings} {s : Store} {X : Entity} {L : Int}

/-- In a shaped store, a plan over descendants of `X` listed parents first, from derived values
that each stand `L - X.level` below the level of their unit, derives every unit `n` at
`L + (n.level - X.level)`: it is refused for the first unit deeper than the maximum depth, with
that level, and it succeeds only when no unit is. -/
theorem planRows_levels (hs : s.Shaped st) {ns : List Entity}
    {derived : List (Ident × String × Int)} {acc : List Placement}
    (hp : ParentsFirst (derived.map Prod.fst) ns)
    (hns : ∀ n ∈ ns, n ∈ s.descendants X.id X.tenant)
    (hv : ∀ k v, derived.lookup k = some v →
      ∃ D, s.active? k X.tenant = some D ∧ v.2 = L + (D.level - X.level)) :
    (∀ e, planRows st ns derived acc = .error e → ∃ n ∈ ns,
      st.maxDepth < L + (n.level - X.level) ∧
        e = .tooDeep (L + (n.level - X.level)) st.maxDepth) ∧
    (∀ rows, planRows st ns derived acc = .ok rows →
      ∀ n ∈ ns, L + (n.level - X.level) ≤ st.maxDepth) := by
  induction ns generalizing derived acc with
  | nil =>
    exact ⟨fun e h => by simp [planRows] at h, fun _ _ n hn => (List.not_mem_nil hn).elim⟩
  | cons n ns ih =>
    cases hp with
    | @cons _ _ _ p hpar hpmem hrest =>
    obtain ⟨pv, hpv⟩ := lookup_isSome_of_mem hpmem
    obtain ⟨D, hD, hDlevel⟩ := hv p pv hpv
    obtain ⟨hm, hact, -⟩ := mem_descendants (hns n List.mem_cons_self)
    simp only [Entity.activeIn, Bool.and_eq_true, beq_iff_eq] at hact
    -- `n` stands one level below its parent `D`, and is derived one level below `D`'s value
    obtain ⟨Q, hQ, -, hnlevel⟩ := (hs.placed n hm hact.2).child hpar
    rw [hact.1, hD, Option.some.injEq] at hQ
    subst hQ
    have hderived : (st.childOf pv.1 pv.2 n.name).2 = L + (n.level - X.level) := by
      simp only [Settings.childOf]
      omega
    have hv' : ∀ k v, ((n.id, st.childOf pv.1 pv.2 n.name) :: derived).lookup k = some v →
        ∃ D, s.active? k X.tenant = some D ∧ v.2 = L + (D.level - X.level) := by
      intro k v hk
      by_cases hkn : k = n.id
      · subst hkn
        simp only [List.lookup, BEq.rfl, Option.some.injEq] at hk
        subst hk
        exact ⟨n, hs.keyed.active?_of_mem hm (by simp [Entity.activeIn, hact]), hderived⟩
      · rw [lookup_cons_of_ne hkn] at hk
        exact hv k v hk
    have hrest' :
        ParentsFirst (((n.id, st.childOf pv.1 pv.2 n.name) :: derived).map Prod.fst) ns := by
      simpa using hrest
    have hns' : ∀ m ∈ ns, m ∈ s.descendants X.id X.tenant := fun m hm =>
      hns m (List.mem_cons_of_mem n hm)
    constructor
    · intro e h
      simp only [planRows, hpar, Option.bind_some, hpv] at h
      split at h
      · rename_i e₀ hdepth
        cases h
        obtain ⟨rfl, hgt⟩ := Settings.checkDepth_error_eq hdepth
        exact ⟨n, List.mem_cons_self, hderived ▸ hgt, by rw [hderived]⟩
      · obtain ⟨m, hm, hgt, rfl⟩ := (ih hrest' hns' hv').1 e h
        exact ⟨m, List.mem_cons_of_mem n hm, hgt, rfl⟩
    · intro rows h m hm
      simp only [planRows, hpar, Option.bind_some, hpv] at h
      split at h
      · cases h
      · rename_i hdepth
        rcases List.mem_cons.1 hm with rfl | hm
        · exact hderived ▸ checkDepth_ok hdepth
        · exact (ih hrest' hns' hv').2 rows h m hm

/-- In a shaped store, the cascade for the active head `X` at level `L` is refused exactly for a
descendant that would sit deeper than the maximum depth, at `L + (D.level - X.level)`. -/
theorem planCascade_levels (hs : f.store.Shaped f.settings)
    (hX : f.store.active? X.id X.tenant = some X) (path : String) (L : Int) :
    (∀ e, f.planCascade X path L = .error e → ∃ D ∈ f.store.descendants X.id X.tenant,
      f.settings.maxDepth < L + (D.level - X.level) ∧
        e = .tooDeep (L + (D.level - X.level)) f.settings.maxDepth) ∧
    (∀ rows, f.planCascade X path L = .ok rows →
      ∀ D ∈ f.store.descendants X.id X.tenant,
        L + (D.level - X.level) ≤ f.settings.maxDepth) := by
  refine planRows_levels hs (by simpa using parentsFirst_descendants f.store X.id X.tenant)
    (fun n hn => hn) fun k v hk => ?_
  -- only the head's own value is known at the start
  by_cases hkx : k = X.id
  · subst hkx
    simp only [List.lookup, BEq.rfl, Option.some.injEq] at hk
    subst hk
    exact ⟨X, hX, by omega⟩
  · rw [lookup_cons_of_ne hkx] at hk
    cases hk

/-! ## §4 The commit -/

/-- A commit whose checks pass writes its rows and returns its head, stamped. -/
theorem commit_of_vet {s : Store} {c : Change} {claim : Option NameClaim}
    (hv : s.vet c claim = .ok ()) :
    ∃ head, head.id = c.id ∧ (Store.commit c claim).run s =
      .ok (stamp c.edit head) ((s.writeRows c.cascade).modify c.id (stamp c.edit)) := by
  obtain ⟨head, hh⟩ := Option.isSome_iff_exists.1
    ((find?_writeRows_isSome s c.cascade c.id).trans (find?_isSome_of_vet hv))
  refine ⟨head, by simpa using List.find?_some hh, ?_⟩
  unfold Store.commit
  rw [InPlace.run_getThe_bind, hv, InPlace.check_ok_bind]
  simp [hh]

/-! ## §5 The decision list -/

end Forest

namespace Store

/-- The destination `target` of a move of `x` passes its checks and resolves to `q`: the roots,
or an active unit of the tenant other than `x` that does not descend from `x`. -/
def Destined (s : Store) (t x : Ident) : Option Ident → Option Entity → Prop
  | none, none => True
  | some p, some P => p ≠ x ∧ s.active? p t = some P ∧ ¬ s.Descends t p x
  | _, _ => False

/-- A destination that passes asks for no cycle. -/
theorem Destined.not_cycle {s : Store} {t x : Ident} {target : Option Ident} {q : Option Entity}
    (h : s.Destined t x target q) : ¬ ∃ p, target = some p ∧ (p = x ∨ s.Descends t p x) := by
  rintro ⟨p, rfl, hp⟩
  cases q with
  | none => exact h
  | some P =>
    obtain ⟨hpx, -, hd⟩ := h
    exact hp.elim hpx hd

end Store

namespace Forest

open Store

variable {f : Forest} {t : Ident}

/-- The answer `r` a move of `x` of tenant `t` below `target` gets from the forest `f`, by the
first rule of the decision list that applies. -/
inductive MoveVerdict (f : Forest) (t x : Ident) :
    Option Ident → EStateM.Result Fault Forest Entity → Prop
  /-- The unit is no active unit of the tenant. -/
  | missing {target : Option Ident} : f.store.active? x t = none →
      MoveVerdict f t x target (.error (.unitMissing x) f)
  /-- The unit is asked to go below itself. -/
  | underItself {X : Entity} : f.store.active? x t = some X →
      MoveVerdict f t x (some x) (.error .underItself f)
  /-- The target is an active unit of another tenant. -/
  | parentElsewhere {X : Entity} {p o : Ident} : f.store.active? x t = some X → p ≠ x →
      f.store.active? p t = none → o ≠ t → (f.store.active? p o).isSome →
      MoveVerdict f t x (some p) (.error (.parentElsewhere p) f)
  /-- The target is no active unit of any tenant. -/
  | parentMissing {X : Entity} {p : Ident} : f.store.active? x t = some X → p ≠ x →
      (∀ o, f.store.active? p o = none) →
      MoveVerdict f t x (some p) (.error (.parentMissing p) f)
  /-- The target descends from the unit. -/
  | underDescendant {X P : Entity} {p : Ident} : f.store.active? x t = some X → p ≠ x →
      f.store.active? p t = some P → f.store.Descends t p x →
      MoveVerdict f t x (some p) (.error .underDescendant f)
  /-- The target is the current parent: nothing changes. -/
  | unchanged {X : Entity} {target : Option Ident} {q : Option Entity} :
      f.store.active? x t = some X → f.store.Destined t x target q → X.parent = target →
      MoveVerdict f t x target (.ok X f)
  /-- The unit would sit too deep. -/
  | tooDeep {X : Entity} {target : Option Ident} {q : Option Entity} :
      f.store.active? x t = some X → f.store.Destined t x target q → X.parent ≠ target →
      f.settings.maxDepth < (f.settings.derive X.name q).2 →
      MoveVerdict f t x target
        (.error (.tooDeep (f.settings.derive X.name q).2 f.settings.maxDepth) f)
  /-- The name is taken at the destination. -/
  | nameTaken {X : Entity} {target : Option Ident} {q : Option Entity} :
      f.store.active? x t = some X → f.store.Destined t x target q → X.parent ≠ target →
      (f.settings.derive X.name q).2 ≤ f.settings.maxDepth → f.NameClash x X target →
      MoveVerdict f t x target (.error (.nameTaken X.name f.settings.policy.name) f)
  /-- A descendant would sit too deep. -/
  | subtreeTooDeep {X D : Entity} {target : Option Ident} {q : Option Entity} :
      f.store.active? x t = some X → f.store.Destined t x target q → X.parent ≠ target →
      (f.settings.derive X.name q).2 ≤ f.settings.maxDepth → ¬ f.NameClash x X target →
      D ∈ f.store.activeOf t → f.store.Descends t D.id x →
      f.settings.maxDepth < (f.settings.derive X.name q).2 + (D.level - X.level) →
      MoveVerdict f t x target (.error
        (.tooDeep ((f.settings.derive X.name q).2 + (D.level - X.level)) f.settings.maxDepth) f)
  /-- The move goes through: the unit gets the target as parent, and the path and level derived
  below it. -/
  | moved {X X' : Entity} {f' : Forest} {target : Option Ident} {q : Option Entity} :
      f.store.active? x t = some X → f.store.Destined t x target q → X.parent ≠ target →
      (f.settings.derive X.name q).2 ≤ f.settings.maxDepth → ¬ f.NameClash x X target →
      (∀ D ∈ f.store.activeOf t, f.store.Descends t D.id x →
        (f.settings.derive X.name q).2 + (D.level - X.level) ≤ f.settings.maxDepth) →
      X'.id = x → X'.parent = target → (X'.path, X'.level) = f.settings.derive X.name q →
      MoveVerdict f t x target (.ok X' f')

/-- A move is refused as a cycle exactly when the unit is active and the target is the unit or
one of its descendants. -/
theorem MoveVerdict.cycle_iff {x : Ident} {target : Option Ident}
    {r : EStateM.Result Fault Forest Entity} (h : MoveVerdict f t x target r) :
    (∃ e f', r = .error e f' ∧ e.category = .cycleDetected) ↔
      (∃ X, f.store.active? x t = some X) ∧
        ∃ p, target = some p ∧ (p = x ∨ f.store.Descends t p x) := by
  -- the refusals of the other rules have other categories; their conditions rule a cycle out
  cases h with
  | missing hX => simp [Fault.category, hX]
  | underItself hX => exact iff_of_true ⟨_, _, rfl, rfl⟩ ⟨⟨_, hX⟩, _, rfl, .inl rfl⟩
  | parentElsewhere hX hpx hP _ _ =>
    refine iff_of_false (by simp [Fault.category]) ?_
    rintro ⟨-, p, hp, hcycle⟩
    cases hp
    exact not_cycle_of_inactive hpx hP hcycle
  | parentMissing hX hpx hno =>
    refine iff_of_false (by simp [Fault.category]) ?_
    rintro ⟨-, p, hp, hcycle⟩
    cases hp
    exact not_cycle_of_inactive hpx (hno t) hcycle
  | underDescendant hX hpx hP hd =>
    exact iff_of_true ⟨_, _, rfl, rfl⟩ ⟨⟨_, hX⟩, _, rfl, .inr hd⟩
  | unchanged hX hq _ => exact iff_of_false (by simp) fun h => hq.not_cycle h.2
  | tooDeep hX hq _ _ => exact iff_of_false (by simp [Fault.category]) fun h => hq.not_cycle h.2
  | nameTaken hX hq _ _ _ => exact iff_of_false (by simp [Fault.category]) fun h => hq.not_cycle h.2
  | subtreeTooDeep hX hq _ _ _ _ _ _ =>
    exact iff_of_false (by simp [Fault.category]) fun h => hq.not_cycle h.2
  | moved hX hq _ _ _ _ _ _ _ => exact iff_of_false (by simp) fun h => hq.not_cycle h.2


/-- Once the unit and its destination have passed, a move follows the decision list from the
current parent on. -/
theorem verdict_of_destination (hs : f.store.Shaped f.settings) (actor : Option Ident)
    {x : Ident} {target : Option Ident} {X : Entity} {q : Option Entity}
    (hX : f.store.active? x t = some X) (hd : f.destination t x target = .ok q)
    (hq : f.store.Destined t x target q) :
    MoveVerdict f t x target ((move t actor x target).run f) := by
  obtain ⟨-, hXid, hXt, -⟩ := mem_of_active? hX
  have hself : f.store.active? X.id X.tenant = some X := by rw [hXid, hXt]; exact hX
  have hnd := hs.keyed.nodup
  unfold move
  rw [InPlace.run_getThe_bind, show f.store.getActive x t = .ok X by simp [getActive, hX],
    InPlace.check_ok_bind, hd, InPlace.check_ok_bind]
  by_cases hpar : X.parent = target
  · rw [if_pos (by simpa using hpar)]
    exact .unchanged hX hq hpar
  rw [if_neg (by simpa using hpar)]
  cases hder : f.settings.derive X.name q with
  | mk path level =>
  have hL : (f.settings.derive X.name q).2 = level := by rw [hder]
  dsimp only
  -- rule 6: the unit's own level
  cases hdepth : f.settings.checkDepth level with
  | error e =>
    rw [InPlace.check_error_bind, InPlace.run_throw]
    obtain ⟨rfl, hgt⟩ := Settings.checkDepth_error_eq hdepth
    rw [← hL] at hgt ⊢
    exact .tooDeep hX hq hpar hgt
  | ok u =>
  have hLle := checkDepth_ok hdepth
  rw [← hL] at hLle
  rw [InPlace.check_ok_bind]
  -- rule 7: the name at the destination
  cases hc : f.ensureAvailable (f.claimFor X.name t target (some x)) with
  | error e =>
    rw [InPlace.check_error_bind, InPlace.run_throw]
    obtain ⟨rfl, hclash⟩ := claim_move_error hXt hc
    exact .nameTaken hX hq hpar hLle hclash
  | ok u' =>
  have hfree := claim_move_ok hXt hc
  rw [InPlace.check_ok_bind]
  -- rule 8: the levels of the descendants
  cases hpc : f.planCascade X path level with
  | error e =>
    rw [InPlace.check_error_bind, InPlace.run_throw]
    obtain ⟨D, hD, hgt, rfl⟩ := (planCascade_levels hs hself path level).1 e hpc
    rw [hXid, hXt] at hD
    obtain ⟨hDa, -, hDd⟩ := (mem_descendants_iff hnd).1 hD
    rw [← hL] at hgt ⊢
    exact .subtreeTooDeep hX hq hpar hLle hfree hDa hDd hgt
  | ok rows =>
  rw [InPlace.check_ok_bind]
  have hall : ∀ D ∈ f.store.activeOf t, f.store.Descends t D.id x →
      (f.settings.derive X.name q).2 + (D.level - X.level) ≤ f.settings.maxDepth := by
    intro D hD hDd
    have hne : D.id ≠ x := fun h => hs.not_descends_self (h ▸ hDd)
    have hmem : D ∈ f.store.descendants X.id X.tenant := by
      rw [hXid, hXt]
      exact (mem_descendants_iff hnd).2 ⟨hD, hne, hDd⟩
    rw [hL]
    exact (planCascade_levels hs hself path level).2 rows hpc D hmem
  -- rule 9: the commit repeats checks that passed; its change is read off the goal
  have hvet : ∀ c : Change, c.id = x → c.tenant = t → c.expected = X.version →
      c.cascade = rows → f.store.vet c (f.claimFor X.name t target (some x)) = .ok () := by
    intro c hcid hct hce hcr
    rw [Store.vet, checkClaim_of_ensureAvailable hc, hcid, hct, hce, checkVersion_ok hX rfl,
      hcr, ← hXt, planCascade_checkRows hs.keyed hpc]
    rfl
  have key : ∀ c : Change, c.id = x → c.tenant = t → c.expected = X.version →
      c.cascade = rows → c.edit.parent = some target → c.edit.path = some path →
      c.edit.level = some level →
      MoveVerdict f t x target
        ((onStore (Store.commit c (f.claimFor X.name t target (some x)))).run f) := by
    intro c hcid hct hce hcr hparent hpath hlevel
    obtain ⟨head, hhead, hrun⟩ := commit_of_vet (hvet c hcid hct hce hcr)
    rw [onStore_ok.2 ⟨_, hrun, rfl⟩]
    refine .moved hX hq hpar hLle hfree hall (by rw [id_stamp, hhead, hcid]) ?_ ?_
    · simp [stamp, Edit.apply, hparent]
    · simp [stamp, Edit.apply, hpath, hlevel, hder]
  exact key _ rfl rfl rfl rfl rfl rfl rfl

/-- In a shaped store under the bound, every move follows the decision list. -/
theorem move_verdict (hs : f.store.Shaped f.settings) (h0 : 0 ≤ f.settings.maxDepth)
    (h1 : f.settings.maxDepth < 2 ^ 31 - 1) (actor : Option Ident) (x : Ident)
    (target : Option Ident) : MoveVerdict f t x target ((move t actor x target).run f) := by
  cases hX : f.store.active? x t with
  | none =>
    rw [move_run_of_getActive_error (e := .unitMissing x) (by simp [getActive, hX])]
    exact .missing hX
  | some X =>
  have hget : f.store.getActive x t = .ok X := by simp [getActive, hX]
  cases target with
  | none => exact verdict_of_destination hs actor hX rfl trivial
  | some p =>
  by_cases hpx : p = x
  · subst hpx
    rw [move_run_of_destination_error hget (destination_self p)]
    exact .underItself hX
  cases hP : f.store.active? p t with
  | none =>
    -- a target outside the tenant is refused before the cycle check
    rcases resolveParent_of_none hP with ⟨hr, o, ho, hso⟩ | ⟨hr, hno⟩
    · rw [move_run_of_destination_error hget (destination_of_resolveParent_error hpx hr)]
      exact .parentElsewhere hX hpx hP ho hso
    · rw [move_run_of_destination_error hget (destination_of_resolveParent_error hpx hr)]
      exact .parentMissing hX hpx hno
  | some P =>
  have hr : f.resolveParent p t = .ok P := by simp [resolveParent, hP]
  obtain ⟨b, hb, hbd⟩ := wouldCycle_iff hs h0 h1 hP hpx
  have hd := destination_of_wouldCycle hpx hr hb
  cases b with
  | true =>
    rw [if_pos rfl] at hd
    rw [move_run_of_destination_error hget hd]
    exact .underDescendant hX hpx hP (hbd.1 rfl)
  | false =>
    rw [if_neg Bool.false_ne_true] at hd
    exact verdict_of_destination hs actor hX hd ⟨hpx, hP, fun h => Bool.false_ne_true (hbd.2 h)⟩

/-- **How a move is decided.** In a reachable forest, under a depth bound between 0 and the
largest 32-bit integer, a move follows the decision list `MoveVerdict`, and it is refused as a
cycle exactly when the unit is active and the target is the unit or one of its
descendants. -/
theorem move_follows_decision_list {st : Settings} (hf : Reachable st f)
    (h0 : 0 ≤ st.maxDepth) (h1 : st.maxDepth < 2 ^ 31 - 1) (t : Ident) (actor : Option Ident)
    (x : Ident) (target : Option Ident) :
    MoveVerdict f t x target ((move t actor x target).run f) ∧
      ((∃ e f', (move t actor x target).run f = .error e f' ∧ e.category = .cycleDetected) ↔
        (∃ X, f.store.active? x t = some X) ∧
          ∃ p, target = some p ∧ (p = x ∨ f.store.Descends t p x)) := by
  have hst : f.settings = st := hf.settings_eq
  subst hst
  have hverdict := move_verdict hf.shaped h0 h1 actor x target (t := t)
  exact ⟨hverdict, hverdict.cycle_iff⟩

/-- Moving `Acme` below its child `Sales` follows the decision list, and is a cycle. -/
theorem acme_under_sales_follows_decision_list :
    Reachable {} acmeSalesForest ∧ (0 : Int) ≤ ({} : Settings).maxDepth ∧
      ({} : Settings).maxDepth < 2 ^ 31 - 1 ∧
      (MoveVerdict acmeSalesForest (Ident.ofNat 7) (Ident.serial 1) (some (Ident.serial 2))
          ((move (Ident.ofNat 7) none (Ident.serial 1) (some (Ident.serial 2))).run
            acmeSalesForest) ∧
        ((∃ e f', (move (Ident.ofNat 7) none (Ident.serial 1) (some (Ident.serial 2))).run
              acmeSalesForest = .error e f' ∧ e.category = .cycleDetected) ↔
          (∃ X, acmeSalesForest.store.active? (Ident.serial 1) (Ident.ofNat 7) = some X) ∧
            ∃ p, some (Ident.serial 2) = some p ∧
              (p = Ident.serial 1 ∨ acmeSalesForest.store.Descends (Ident.ofNat 7) p
                (Ident.serial 1)))) := by
  have hreach : Reachable {} acmeSalesForest := .after _ (.after _ .empty)
  exact ⟨hreach, by decide, by decide,
    move_follows_decision_list hreach (by decide) (by decide) _ none _ _⟩

end Forest

end TenantForest

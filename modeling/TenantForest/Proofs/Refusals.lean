import TenantForest.Proofs.WellFormed

/-!
# What a well-formed forest refuses with

Some faults report a request the forest cannot grant: a missing unit, a name in use, a level
too deep, a cycle asked for. Others can only come from corrupt data or from a write computed
against an older reading: every internal fault (an ancestor chain that is corrupt or leaves the
tenant, a descendant reached before its parent, an illegal change of state) and the refusal of a
stale version. Call the latter *anomalies*.

Main statement: `reachable_forest_raises_no_anomaly`. Under a depth bound between 0 and the
largest 32-bit integer, no call to a reachable forest is refused with an anomaly. Each guard
against corrupt data holds because the store is shaped (`Forest.Reachable.shaped`):

* the ancestor climb from an active unit follows its root path, which fits the chain limit
  and the fuel (`ancestors_of_shaped`); from any other start it stops at once with a missing
  unit;
* the descendant walk yields parents first, so the cascade plan finds every parent's new
  place and can only refuse a level that is too deep;
* a write is computed from the units as the forest holds them, so its head and every row
  carry their current versions, and the unit retired is active.

  §1 Refusals — `RefusesWith P s m`: every refusal of `m` from `s` satisfies `P`, with the
     combinators that build it up along a computation.
  §2 The checks of the forest — which faults each check can give.
  §3 Cascades — the rows of a plan carry the versions of the units they move.
  §4 Writes and reads.
  §5 Reachable forests.
-/

namespace TenantForest

/-- A fault that only corrupt data or a concurrent write can cause: an internal fault, or the
refusal of a stale version. -/
def Fault.Anomaly (e : Fault) : Prop :=
  e.category = .internal ∨ ∃ id, e = .staleVersion id

/-! ## §1 Refusals -/

namespace InPlace

variable {σ α β : Type} {P : Fault → Prop} {s : σ}

/-- Run from `s`, every refusal of `m` carries a fault satisfying `P`. -/
def RefusesWith (P : Fault → Prop) (s : σ) (m : InPlace σ α) : Prop :=
  ∀ e s', m.run s = .error e s' → P e

namespace RefusesWith

/-- A computation that succeeds refuses nothing. -/
theorem of_ok {m : InPlace σ α} {a : α} {s' : σ} (h : m.run s = .ok a s') :
    RefusesWith P s m := by
  intro e s'' h'
  rw [h] at h'
  cases h'

/-- A bare refusal with a fault satisfying `P`. -/
theorem throw {e : Fault} (he : P e) : RefusesWith P s (throw e : InPlace σ α) := by
  intro e' s' h
  simp only [run_throw, EStateM.Result.error.injEq] at h
  exact h.1 ▸ he

/-- A check whose faults satisfy `P`, then a computation whose refusals do whenever the check
passes. -/
theorem check_bind {r : Except Fault α} {g : α → InPlace σ β} (hr : ∀ e, r = .error e → P e)
    (hg : ∀ a, r = .ok a → RefusesWith P s (g a)) : RefusesWith P s (check r >>= g) := by
  intro e s' h
  cases r with
  | error e₀ =>
    simp only [EStateM.run_bind, run_check_error, EStateM.Result.error.injEq] at h
    exact h.1 ▸ hr e₀ rfl
  | ok a => exact hg a rfl e s' (by simpa using h)

/-- Reading the state, then a computation whose refusals from it satisfy `P`. -/
theorem get_bind {g : σ → InPlace σ β} (hg : RefusesWith P s (g s)) :
    RefusesWith P s (getThe σ >>= g) := by
  intro e s' h
  exact hg e s' (by simpa using h)

/-- Mapping the value keeps the refusals. -/
theorem map (f : α → β) {m : InPlace σ α} (hm : RefusesWith P s m) :
    RefusesWith P s (f <$> m) := by
  intro e s' h
  rw [run_map] at h
  split at h
  · cases h
  · rename_i e₀ s₀ hm₀
    simp only [EStateM.Result.error.injEq] at h
    exact h.1 ▸ hm e₀ s₀ hm₀

end RefusesWith

end InPlace

open InPlace

/-! ## §2 The checks of the forest -/

section Checks

variable {e : Fault}

/-- The request's own checks refuse a missing name or metadata that is not an object. -/
theorem CreateRequest.validate_error {r : CreateRequest} (h : r.validate = .error e) :
    ¬ e.Anomaly := by
  unfold CreateRequest.validate at h
  split at h
  · cases h
    simp [Fault.Anomaly, Fault.category]
  · split at h <;> cases h
    simp [Fault.Anomaly, Fault.category]

/-- A name is refused as blank, too long, or holding the separator. -/
theorem Settings.validateName_error {st : Settings} {name : String}
    (h : st.validateName name = .error e) : ¬ e.Anomaly := by
  unfold Settings.validateName at h
  dsimp only at h
  split at h
  · cases h
    simp [Fault.Anomaly, Fault.category]
  · split at h
    · cases h
      simp [Fault.Anomaly, Fault.category]
    · split at h <;> cases h
      simp [Fault.Anomaly, Fault.category]

/-- A level is refused as too deep. -/
theorem Settings.checkDepth_error {st : Settings} {level : Int} (h : st.checkDepth level = .error e) :
    ¬ e.Anomaly := by
  unfold Settings.checkDepth at h
  split at h <;> cases h
  simp [Fault.Anomaly, Fault.category]

/-- A unit is refused as missing. -/
theorem Store.getActive_error {s : Store} {id t : Ident} (h : s.getActive id t = .error e) :
    ¬ e.Anomaly := by
  unfold Store.getActive at h
  split at h <;> cases h
  simp [Fault.Anomaly, Fault.category]

/-- A claim is refused as taken. -/
theorem Store.checkClaim_error {s : Store} {claim : Option NameClaim}
    (h : s.checkClaim claim = .error e) : ¬ e.Anomaly := by
  unfold Store.checkClaim at h
  split at h
  · split at h <;> cases h
    simp [Fault.Anomaly, Fault.category]
  · cases h

/-- An insert refuses a taken claim or a missing parent. -/
theorem Store.allows_error {s : Store} {d : Draft} {claim : Option NameClaim}
    (h : s.allows d claim = .error e) : ¬ e.Anomaly := by
  simp only [Store.allows, bind, Except.bind] at h
  split at h
  · rename_i e₀ hc
    cases h
    exact Store.checkClaim_error hc
  · split at h
    · split at h <;> cases h
      simp [Fault.Anomaly, Fault.category]
    · cases h

/-- A parent is refused as missing or as belonging to another tenant. -/
theorem Forest.resolveParent_error {f : Forest} {p t : Ident} (h : f.resolveParent p t = .error e) :
    ¬ e.Anomaly := by
  unfold Forest.resolveParent at h
  split at h
  · cases h
  · split at h
    · split at h <;> cases h <;> simp [Fault.Anomaly, Fault.category]
    · cases h
      simp [Fault.Anomaly, Fault.category]

/-- The parent a create request names is refused as `resolveParent` refuses it. -/
theorem Forest.parentOf_error {f : Forest} {t : Ident} {r : Option Ident}
    (h : f.parentOf t r = .error e) : ¬ e.Anomaly := by
  cases r with
  | none => cases h
  | some p =>
    simp only [Forest.parentOf] at h
    cases hp : f.resolveParent p t with
    | error e₀ =>
      simp only [hp, Except.map, Except.error.injEq] at h
      exact h ▸ Forest.resolveParent_error hp
    | ok P => simp [hp, Except.map] at h

/-- The current parent of a unit is refused as missing. -/
theorem Forest.currentParent_error {f : Forest} {t : Ident} {r : Option Ident}
    (h : f.currentParent t r = .error e) : ¬ e.Anomaly := by
  cases r with
  | none => cases h
  | some p =>
    simp only [Forest.currentParent] at h
    cases hp : f.store.getActive p t with
    | error e₀ =>
      simp only [hp, Except.map, Except.error.injEq] at h
      exact h ▸ Store.getActive_error hp
    | ok P => simp [hp, Except.map] at h

/-- A name claim of the forest is refused as taken. -/
theorem Forest.ensureAvailable_error {f : Forest} {claim : Option NameClaim}
    (h : f.ensureAvailable claim = .error e) : ¬ e.Anomaly := by
  unfold Forest.ensureAvailable at h
  split at h
  · split at h <;> cases h
    simp [Fault.Anomaly, Fault.category]
  · cases h

end Checks

/-! ## §3 Cascades -/

namespace Store

/-- A version check passes for an active unit of the tenant read at its current version. -/
theorem checkVersion_ok {s : Store} {id t : Ident} {u : Entity} (h : s.active? id t = some u)
    (hv : u.version = expected) : s.checkVersion id t expected = .ok () := by
  simp [checkVersion, h, hv]

/-- Rows naming active units of the tenant at their current versions pass their checks. -/
theorem checkRows_ok {s : Store} {t : Ident} {rows : List Placement}
    (h : ∀ r ∈ rows, ∃ u, s.active? r.id t = some u ∧ u.version = r.expected) :
    s.checkRows t rows = .ok () := by
  induction rows with
  | nil => rfl
  | cons r rs ih =>
    obtain ⟨u, hu, hv⟩ := h r List.mem_cons_self
    simp only [checkRows, checkVersion_ok hu hv]
    exact ih fun r' hr' => h r' (List.mem_cons_of_mem r hr')

end Store

namespace Forest

open Store

variable {st : Settings}

/-- A plan that succeeds writes, after the rows it started with, at most one row per unit, in
the order of the units: each row names a unit whose path or level it changes, at the version
the unit was read at. -/
theorem planRows_rows {ns : List Entity} {derived : List (Ident × String × Int)}
    {acc rows : List Placement} (h : planRows st ns derived acc = .ok rows) :
    ∃ rest, rows = acc.reverse ++ rest ∧ (rest.map Placement.id).Sublist (ns.map Entity.id) ∧
      ∀ r ∈ rest, ∃ n ∈ ns, r.id = n.id ∧ r.expected = n.version ∧
        (r.path ≠ n.path ∨ r.level ≠ n.level) := by
  induction ns generalizing derived acc with
  | nil =>
    simp only [planRows, Except.ok.injEq] at h
    exact ⟨[], by simp [h], by simp, by simp⟩
  | cons n ns ih =>
    cases hl : n.parent.bind (fun p => derived.lookup p) with
    | none => simp [planRows, hl] at h
    | some pv =>
      simp only [planRows, hl] at h
      split at h
      · cases h
      obtain ⟨rest, hrows, hsub, hrest⟩ := ih h
      set v := st.childOf pv.1 pv.2 n.name
      by_cases moved : (v.1 != n.path || v.2 != n.level) = true
      · -- `n` moves: its row leads the rows planned for the later units
        let row : Placement := { id := n.id, expected := n.version, path := v.1, level := v.2 }
        rw [if_pos moved] at hrows
        refine ⟨row :: rest, by simp [hrows, row], hsub.cons_cons n.id, fun r hr => ?_⟩
        rcases List.mem_cons.1 hr with rfl | hr
        · simp only [Bool.or_eq_true, bne_iff_ne, ne_eq] at moved
          exact ⟨n, List.mem_cons_self, rfl, rfl, moved⟩
        · obtain ⟨m, hm, hrm⟩ := hrest r hr
          exact ⟨m, List.mem_cons_of_mem n hm, hrm⟩
      · rw [if_neg moved] at hrows
        refine ⟨rest, hrows, hsub.cons n.id, fun r hr => ?_⟩
        obtain ⟨m, hm, hrm⟩ := hrest r hr
        exact ⟨m, List.mem_cons_of_mem n hm, hrm⟩

/-- Over units listed parents first from the known values, a plan is refused only for a level
that is too deep. -/
theorem planRows_error {ns : List Entity} {derived : List (Ident × String × Int)}
    {acc : List Placement} {e : Fault} (hp : ParentsFirst (derived.map Prod.fst) ns)
    (h : planRows st ns derived acc = .error e) : ¬ e.Anomaly := by
  induction ns generalizing derived acc with
  | nil => cases h
  | cons n ns ih =>
    cases hp with
    | cons hpar hpmem hrest =>
    -- the parent's value is known, so the only check left is the depth
    obtain ⟨pv, hpv⟩ := lookup_isSome_of_mem hpmem
    simp only [planRows, hpar, Option.bind_some, hpv] at h
    split at h
    · rename_i e₀ hdepth
      cases h
      exact Settings.checkDepth_error hdepth
    · refine ih ?_ h
      simpa using hrest

/-- The cascade of a head is refused only for a level that is too deep. -/
theorem planCascade_error {f : Forest} {head : Entity} {path : String} {level : Int} {e : Fault}
    (h : f.planCascade head path level = .error e) : ¬ e.Anomaly := by
  refine planRows_error ?_ h
  simpa using parentsFirst_descendants f.store head.id head.tenant

/-- In a keyed store the rows of a cascade pass their checks: each names a descendant at the
version it was read at. -/
theorem planCascade_checkRows {f : Forest} {head : Entity} {path : String} {level : Int}
    {rows : List Placement} (hk : f.store.Keyed) (h : f.planCascade head path level = .ok rows) :
    f.store.checkRows head.tenant rows = .ok () := by
  obtain ⟨rest, rfl, -, hrest⟩ := planRows_rows h
  refine checkRows_ok fun r hr => ?_
  obtain ⟨n, hn, hid, hv, -⟩ := hrest r (by simpa using hr)
  obtain ⟨hmem, hact, -⟩ := mem_descendants hn
  exact ⟨n, hid ▸ hk.active?_of_mem hmem hact, hv.symm⟩

end Forest

/-! ## §4 Writes and reads -/

namespace Store

variable {s : Store} {P : Fault → Prop}

/-- The checks of a commit whose head and rows carry current versions refuse only a taken
claim. -/
theorem vet_error {c : Change} {claim : Option NameClaim} {e : Fault}
    (hhead : s.checkVersion c.id c.tenant c.expected = .ok ())
    (hrows : s.checkRows c.tenant c.cascade = .ok ()) (h : s.vet c claim = .error e) :
    ¬ e.Anomaly := by
  simp only [vet, bind, Except.bind, hhead, hrows] at h
  split at h
  · rename_i e₀ hc
    cases h
    exact checkClaim_error hc
  · cases h

/-- An insert is refused only as its checks refuse it. -/
theorem refusesWith_insert {d : Draft} {claim : Option NameClaim}
    (h : ∀ e, s.allows d claim = .error e → P e) : RefusesWith P s (insert d claim) := by
  unfold insert
  exact RefusesWith.get_bind (RefusesWith.check_bind h fun _ _ => RefusesWith.of_ok rfl)

/-- A commit is refused only as its checks refuse it: the head it looks up again after the rows
is still there. -/
theorem refusesWith_commit {c : Change} {claim : Option NameClaim}
    (h : ∀ e, s.vet c claim = .error e → P e) : RefusesWith P s (commit c claim) := by
  unfold commit
  refine RefusesWith.get_bind (RefusesWith.check_bind h fun _ hv => ?_)
  obtain ⟨head, hh⟩ := Option.isSome_iff_exists.1
    ((find?_writeRows_isSome s c.cascade c.id).trans (find?_isSome_of_vet hv))
  intro e s' h'
  simp [hh] at h'

end Store

namespace Forest

open Store

variable {f : Forest} {t : Ident} {actor : Option Ident} {P : Fault → Prop} {e : Fault}

/-- A store write on the forest is refused only as the store write is. -/
theorem refusesWith_onStore {α : Type} {m : InPlace Store α} (hm : RefusesWith P f.store m) :
    RefusesWith P f (onStore m) := by
  unfold onStore
  refine RefusesWith.get_bind ?_
  intro e f' h
  split at h
  · simp at h
  · rename_i e₀ s₀ hs
    simp only [EStateM.run_bind, EStateM.run_set, run_throw, EStateM.Result.error.injEq] at h
    exact h.1 ▸ hm e₀ s₀ hs

/-- Under a depth bound between 0 and the largest 32-bit integer, the ancestor climb from an
active unit of a shaped store succeeds. -/
theorem ancestry_of_active (hs : f.store.Shaped f.settings) (h0 : 0 ≤ f.settings.maxDepth)
    (h1 : f.settings.maxDepth < 2 ^ 31 - 1) {p : Ident} {u : Entity}
    (hu : f.store.active? p t = some u) :
    ∃ chain, f.store.ancestry f.settings.maxDepth p t = .ok chain := by
  obtain ⟨hmem, rfl, hten, hact⟩ := mem_of_active? hu
  have hactive : u ∈ f.store.activeOf t :=
    mem_activeOf.2 ⟨hmem, by simp [Entity.activeIn, hten, hact]⟩
  obtain ⟨chain, hc, -⟩ := ancestors_of_shaped hs h0 h1 hactive
  simp only [ancestors] at hc
  cases ha : f.store.ancestry f.settings.maxDepth u.id t with
  | error e =>
    rw [ha] at hc
    cases hc
  | ok c => exact ⟨c, rfl⟩

/-- Under the same bound, the ancestor climb in a shaped store is refused only for a start that
is not an active unit of the tenant. -/
theorem ancestry_error (hs : f.store.Shaped f.settings) (h0 : 0 ≤ f.settings.maxDepth)
    (h1 : f.settings.maxDepth < 2 ^ 31 - 1) {id : Ident}
    (h : f.store.ancestry f.settings.maxDepth id t = .error e) : ¬ e.Anomaly := by
  cases hu : f.store.active? id t with
  | some u =>
    obtain ⟨chain, hc⟩ := ancestry_of_active hs h0 h1 hu
    rw [hc] at h
    cases h
  | none =>
    -- the climb stops at its first step, with the start missing
    simp only [ancestry, Walk.climb, List.contains_nil, List.length_nil,
      Walk.chainLimit_eq h0 h1, hu] at h
    simp only [Bool.false_or, decide_eq_true_eq, ge_iff_le, Nat.le_zero, Nat.add_one_ne_zero,
      if_false, List.isEmpty_nil, if_true, Except.error.injEq] at h
    subst h
    simp [Fault.Anomaly, Fault.category]

/-- In a shaped store under the bound, the destination of a move is refused only as under
itself, as a parent that is missing or elsewhere, or as under a descendant. -/
theorem destination_error (hs : f.store.Shaped f.settings) (h0 : 0 ≤ f.settings.maxDepth)
    (h1 : f.settings.maxDepth < 2 ^ 31 - 1) {id : Ident} {target : Option Ident}
    (h : f.destination t id target = .error e) : ¬ e.Anomaly := by
  cases target with
  | none => cases h
  | some p =>
    simp only [destination, bind, Except.bind] at h
    split at h
    · simp only [throw, throwThe, MonadExceptOf.throw, Except.error.injEq] at h
      subst h
      simp [Fault.Anomaly, Fault.category]
    cases hr : f.resolveParent p t with
    | error e₀ =>
      simp only [hr, Except.error.injEq] at h
      exact h ▸ resolveParent_error hr
    | ok P =>
      -- the new parent is active, so the climb from it succeeds
      obtain ⟨chain, hc⟩ := ancestry_of_active hs h0 h1 (resolveParent_ok hr)
      have hcyc : ∃ b, f.store.wouldCycle f.settings.maxDepth id p t = .ok b := by
        unfold wouldCycle
        split
        · exact ⟨_, rfl⟩
        · rw [hc]
          exact ⟨_, rfl⟩
      obtain ⟨b, hb⟩ := hcyc
      simp only [hr, hb] at h
      split at h
      · simp only [throw, throwThe, MonadExceptOf.throw, Except.error.injEq] at h
        subst h
        simp [Fault.Anomaly, Fault.category]
      · cases h

/-- A create is refused only for what its request asks. -/
theorem create_refuses (r : CreateRequest) :
    RefusesWith (fun e => ¬ e.Anomaly) f (create t actor r) := by
  unfold create
  refine RefusesWith.get_bind (RefusesWith.check_bind (fun _ => CreateRequest.validate_error)
    fun _ _ => RefusesWith.check_bind (fun _ => Settings.validateName_error)
      fun name _ => RefusesWith.check_bind (fun _ => parentOf_error) fun parent _ => ?_)
  split
  exact RefusesWith.check_bind (fun _ => Settings.checkDepth_error) fun _ _ =>
    RefusesWith.check_bind (fun _ => ensureAvailable_error) fun _ _ =>
      refusesWith_onStore (refusesWith_insert fun _ => allows_error)

/-- In a keyed store a rename is refused only for what it asks: its head and its rows carry
the versions they were read at. -/
theorem rename_refuses (hk : f.store.Keyed) (id : Ident) (name : String) :
    RefusesWith (fun e => ¬ e.Anomaly) f (rename t actor id name) := by
  unfold rename
  refine RefusesWith.get_bind (RefusesWith.check_bind (fun _ => Settings.validateName_error)
    fun name _ => RefusesWith.check_bind (fun _ => getActive_error) fun node hnode => ?_)
  have hnode' := getActive_ok hnode
  obtain ⟨-, -, hten, -⟩ := mem_of_active? hnode'
  split
  · exact RefusesWith.of_ok rfl
  refine RefusesWith.check_bind (fun _ => ensureAvailable_error) fun _ _ =>
    RefusesWith.check_bind (fun _ => currentParent_error) fun parent _ => ?_
  split
  refine RefusesWith.check_bind (fun _ => planCascade_error) fun cascade hc =>
    refusesWith_onStore (refusesWith_commit fun _ => vet_error (checkVersion_ok hnode' rfl) ?_)
  exact hten ▸ planCascade_checkRows hk hc

/-- In a shaped store under the bound, a move is refused only for what it asks. -/
theorem move_refuses (hs : f.store.Shaped f.settings) (h0 : 0 ≤ f.settings.maxDepth)
    (h1 : f.settings.maxDepth < 2 ^ 31 - 1) (id : Ident) (target : Option Ident) :
    RefusesWith (fun e => ¬ e.Anomaly) f (move t actor id target) := by
  unfold move
  refine RefusesWith.get_bind (RefusesWith.check_bind (fun _ => getActive_error)
    fun node hnode => RefusesWith.check_bind (fun _ => destination_error hs h0 h1)
      fun parent _ => ?_)
  have hnode' := getActive_ok hnode
  obtain ⟨-, -, hten, -⟩ := mem_of_active? hnode'
  split
  · exact RefusesWith.of_ok rfl
  split
  refine RefusesWith.check_bind (fun _ => Settings.checkDepth_error) fun _ _ =>
    RefusesWith.check_bind (fun _ => ensureAvailable_error) fun _ _ =>
      RefusesWith.check_bind (fun _ => planCascade_error) fun cascade hc =>
        refusesWith_onStore (refusesWith_commit fun _ => vet_error (checkVersion_ok hnode' rfl) ?_)
  exact hten ▸ planCascade_checkRows hs.keyed hc

/-- A removal is refused only for active children or dependents: the unit it retires is active,
so retiring it is a legal change of state, read at its current version. -/
theorem remove_refuses (id : Ident) :
    RefusesWith (fun e => ¬ e.Anomaly) f (remove t actor id) := by
  unfold remove
  refine RefusesWith.get_bind (RefusesWith.check_bind (fun _ => getActive_error)
    fun node hnode => ?_)
  have hnode' := getActive_ok hnode
  obtain ⟨-, -, -, hact⟩ := mem_of_active? hnode'
  dsimp only
  split
  · exact RefusesWith.throw (by simp [Fault.Anomaly, Fault.category])
  split
  · exact RefusesWith.throw (by simp [Fault.Anomaly, Fault.category])
  split
  · rename_i hstate
    have hactive : node.state = .active := by
      cases hs : node.state <;> simp_all [Entity.isActive, Lifecycle.isActive]
    simp [hactive, Lifecycle.canBecome] at hstate
  · exact refusesWith_onStore (refusesWith_commit fun _ =>
      vet_error (checkVersion_ok hnode' rfl) (checkRows_ok (by simp)))

/-- A read is refused only as its answer is. -/
theorem answer_refuses {α : Type} {r : Forest → Except Fault α} {reply : α → Reply}
    (hr : ∀ e, r f = .error e → P e) : RefusesWith P f (answer r reply) := by
  unfold answer
  exact RefusesWith.get_bind (RefusesWith.check_bind hr fun _ _ => RefusesWith.of_ok rfl)

/-- A listing is refused only for a negative level bound. -/
theorem list_error {filter : Filter} {r : PageRequest} (h : f.list t filter r = .error e) :
    ¬ e.Anomaly := by
  unfold Forest.list at h
  split at h
  · split at h <;> cases h
    simp [Fault.Anomaly, Fault.category]
  · cases h

/-- The children of a unit are refused only for a missing unit. -/
theorem children_error {id : Ident} (h : f.children t id = .error e) : ¬ e.Anomaly := by
  unfold children at h
  cases ha : f.store.getActive id t with
  | error e₀ =>
    rw [ha] at h
    cases h
    exact getActive_error ha
  | ok u =>
    rw [ha] at h
    cases h

/-- A hierarchy read is refused only for a negative depth bound. -/
theorem hierarchy_error {maxDepth : Option Int} (h : f.hierarchy t maxDepth = .error e) :
    ¬ e.Anomaly := by
  unfold hierarchy at h
  split at h
  · split at h <;> cases h
    simp [Fault.Anomaly, Fault.category]
  · cases h

/-- The nested view is refused only as the hierarchy read is. -/
theorem outline_error {maxDepth : Option Int} (h : f.outline t maxDepth = .error e) :
    ¬ e.Anomaly := by
  unfold outline at h
  cases ha : f.hierarchy t maxDepth with
  | error e₀ =>
    rw [ha] at h
    cases h
    exact hierarchy_error ha
  | ok us =>
    rw [ha] at h
    cases h

/-- In a shaped store under the bound, the ancestors of a unit are refused only for a unit
that is missing. -/
theorem ancestors_error (hs : f.store.Shaped f.settings) (h0 : 0 ≤ f.settings.maxDepth)
    (h1 : f.settings.maxDepth < 2 ^ 31 - 1) {id : Ident} (h : f.ancestors t id = .error e) :
    ¬ e.Anomaly := by
  unfold ancestors at h
  cases ha : f.store.ancestry f.settings.maxDepth id t with
  | error e₀ =>
    rw [ha] at h
    cases h
    exact ancestry_error hs h0 h1 ha
  | ok us =>
    rw [ha] at h
    cases h

/-- In a shaped store under the bound, no call is refused with an anomaly. -/
theorem handle_refuses (hs : f.store.Shaped f.settings) (h0 : 0 ≤ f.settings.maxDepth)
    (h1 : f.settings.maxDepth < 2 ^ 31 - 1) (c : Call) :
    RefusesWith (fun e => ¬ e.Anomaly) f (handle c) := by
  unfold handle
  split
  · exact RefusesWith.map _ (create_refuses _)
  · exact answer_refuses fun _ => getActive_error
  · exact answer_refuses fun _ => list_error
  · exact answer_refuses fun _ => children_error
  · exact RefusesWith.map _ (rename_refuses hs.keyed _ _)
  · exact RefusesWith.map _ (move_refuses hs h0 h1 _ _)
  · exact RefusesWith.map _ (remove_refuses _)
  · exact answer_refuses fun _ => hierarchy_error
  · exact answer_refuses fun _ => outline_error
  · exact answer_refuses fun _ => ancestors_error hs h0 h1
  · exact answer_refuses fun _ h => by cases h
  · exact answer_refuses fun _ h => by cases h
  · exact RefusesWith.of_ok rfl

/-! ## §5 Reachable forests -/

/-- **No anomalies.** Under a depth bound between 0 and the largest 32-bit integer, no call to a
reachable forest, served one at a time, is refused with an internal fault (a corrupt or broken
ancestor chain, a descendant reached before its parent, an illegal change of state) or with the
refusal of a stale version. -/
theorem reachable_forest_raises_no_anomaly {st : Settings} (h0 : 0 ≤ st.maxDepth)
    (h1 : st.maxDepth < 2 ^ 31 - 1) (hf : Reachable st f) (c : Call) (e : Fault)
    (he : f.reply c = .error e) : e.category ≠ .internal ∧ ∀ id, e ≠ .staleVersion id := by
  have hst : f.settings = st := hf.settings_eq
  subst hst
  have hrefuses := handle_refuses hf.shaped h0 h1 c
  simp only [reply, serve] at he
  split at he
  · cases he
  · rename_i e₀ f' hrun
    simp only [Except.map, Except.error.injEq] at he
    subst he
    have := hrefuses e₀ f' hrun
    simp only [Fault.Anomaly, not_or, not_exists] at this
    exact this

/-- A root `Acme` with a child `Sales`, created under the default settings. -/
def acmeSalesForest : Forest :=
  ((Forest.empty {}).after { tenant := Ident.ofNat 7, request := .create { name := "Acme" } }).after
    { tenant := Ident.ofNat 7,
      request := .create { name := "Sales", parent := some (Ident.serial 1) } }

/-- A move of `Acme` below its own child `Sales`. -/
def moveAcmeUnderSales : Call :=
  { tenant := Ident.ofNat 7, request := .move (Ident.serial 1) (some (Ident.serial 2)) }

/-- Moving `Acme` below its child is refused as a cycle, which is no anomaly. -/
theorem acme_under_sales_refused_as_cycle :
    ((0 : Int) ≤ ({} : Settings).maxDepth ∧ ({} : Settings).maxDepth < 2 ^ 31 - 1 ∧
      Reachable {} acmeSalesForest ∧
      acmeSalesForest.reply moveAcmeUnderSales = .error .underDescendant) ∧
    Fault.underDescendant.category ≠ .internal ∧ ∀ id, Fault.underDescendant ≠ .staleVersion id := by
  have hreach : Reachable {} acmeSalesForest := .after _ (.after _ .empty)
  have hreply : acmeSalesForest.reply moveAcmeUnderSales = .error .underDescendant := rfl
  exact ⟨⟨by decide, by decide, hreach, hreply⟩,
    reachable_forest_raises_no_anomaly (by decide) (by decide) hreach _ _ hreply⟩

end Forest

end TenantForest

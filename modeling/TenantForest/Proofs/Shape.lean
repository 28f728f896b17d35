import TenantForest.Proofs.Cascade
import TenantForest.Proofs.Lineage

/-!
# The shape of a reachable forest

A store is *shaped* under settings `st` when it is keyed and every active unit stands where
its parent link puts it: a root has its name for path and level 0, and a child's parent is
an active unit of its tenant from whose path and level the child's are derived. Levels of
active units lie between 0 and the maximum depth.

Every call keeps a store shaped, so every reachable forest has a shaped store. The proof
takes one write at a time:

* a create places a unit whose parent it has just resolved;
* a remove retires a unit that no active unit names as its parent;
* a rename or a move relocates a subtree: the head gets its new place below a parent that
  is neither itself nor one of its descendants, every descendant is derived again from its
  parent by the cascade plan, and no other active unit has its parent in the subtree.

Levels fall by one along every parent link, so in a shaped store no unit descends from
itself.

  §1 Placed units and shaped stores.
  §2 Levels along parent links.
  §3 Relocating a subtree.
  §4 What each write resolves.
  §5 One call at a time, and every reachable store.
-/

namespace TenantForest

namespace Store

variable {st : Settings} {s s' : Store}

/-! ## §1 Placed units and shaped stores -/

/-- What a parent link resolves to in tenant `t`: nothing for a root, and for a child the
active unit of `t` the link names. -/
def Resolves (s : Store) (t : Ident) : Option Ident → Option Entity → Prop
  | none, none => True
  | some p, some q => s.active? p t = some q
  | _, _ => False

/-- A unit stands where its parent link puts it: the link resolves in the unit's tenant,
and the unit's path and level are derived from what it resolves to. -/
def Placed (st : Settings) (s : Store) (e : Entity) : Prop :=
  ∃ q, s.Resolves e.tenant e.parent q ∧ st.derive e.name q = (e.path, e.level)

/-- The shape every reachable store keeps under its settings. -/
structure Shaped (st : Settings) (s : Store) : Prop where
  /-- Identifiers are distinct and drawn from the counter. -/
  keyed : s.Keyed
  /-- Every active unit stands where its parent link puts it. -/
  placed : ∀ e ∈ s.entities, e.isActive = true → s.Placed st e
  /-- Every active unit lies between level 0 and the maximum depth. -/
  bounded : ∀ e ∈ s.entities, e.isActive = true → 0 ≤ e.level ∧ e.level ≤ st.maxDepth

/-- The empty store is shaped under any settings. -/
theorem shaped_empty : Store.empty.Shaped st :=
  ⟨keyed_empty, fun _ h => absurd h List.not_mem_nil, fun _ h => absurd h List.not_mem_nil⟩

/-- A placed root has its name for path and sits at level 0. -/
theorem Placed.root {e : Entity} (h : s.Placed st e) (hp : e.parent = none) :
    e.path = e.name ∧ e.level = 0 := by
  obtain ⟨q, hr, hd⟩ := h
  rw [hp] at hr
  cases q with
  | none =>
    simp only [Settings.derive, Prod.mk.injEq] at hd
    exact ⟨hd.1.symm, hd.2.symm⟩
  | some q => cases hr

/-- A placed child's parent is an active unit of its tenant, and the child's path and level
are derived from it. -/
theorem Placed.child {e : Entity} {p : Ident} (h : s.Placed st e) (hp : e.parent = some p) :
    ∃ q, s.active? p e.tenant = some q ∧ e.path = q.path ++ st.separator ++ e.name ∧
      e.level = q.level + 1 := by
  obtain ⟨q, hr, hd⟩ := h
  rw [hp] at hr
  cases q with
  | none => cases hr
  | some q =>
    simp only [Settings.derive, Settings.childOf, Prod.mk.injEq] at hd
    exact ⟨q, hr, hd.1.symm, hd.2.symm⟩

/-- A link resolves alike in a store that finds the same active unit for it. -/
theorem Resolves.of_active {t : Ident} {o : Option Ident} {q : Option Entity}
    (h : s.Resolves t o q) (hs : ∀ p, o = some p → s'.active? p t = s.active? p t) :
    s'.Resolves t o q := by
  cases o with
  | none => cases q <;> exact h
  | some p =>
    cases q with
    | none => exact h
    | some q =>
      show s'.active? p t = some q
      rw [hs p rfl]
      exact h

/-- A unit stays placed in a store that finds the same active unit for its parent link. -/
theorem Placed.of_active {e : Entity} (h : s.Placed st e)
    (hs : ∀ p, e.parent = some p → s'.active? p e.tenant = s.active? p e.tenant) :
    s'.Placed st e := by
  obtain ⟨q, hr, hd⟩ := h
  exact ⟨q, hr.of_active hs, hd⟩

/-! ## §2 Levels along parent links -/

/-- Along a parent link of a shaped store the level falls by one. -/
theorem Shaped.level_of_link (hs : s.Shaped st) {t x p : Ident} (h : s.ParentLink t x p) :
    ∃ ex ep, s.active? x t = some ex ∧ s.active? p t = some ep ∧ ex.level = ep.level + 1 := by
  obtain ⟨ex, hx, hpx⟩ := h
  obtain ⟨hmem, -, hten, hact⟩ := mem_of_active? hx
  obtain ⟨q, hq, -, hlevel⟩ := (hs.placed ex hmem hact).child hpx
  rw [hten] at hq
  exact ⟨ex, q, hx, hq, hlevel⟩

/-- In a shaped store a unit sits deeper than every unit it descends from. -/
theorem Shaped.level_lt_of_descends (hs : s.Shaped st) {t x a : Ident}
    (h : s.Descends t x a) :
    ∃ ex ea, s.active? x t = some ex ∧ s.active? a t = some ea ∧ ea.level < ex.level := by
  induction h with
  | parent link =>
    obtain ⟨ex, ea, hx, ha, hlevel⟩ := hs.level_of_link link
    exact ⟨ex, ea, hx, ha, by omega⟩
  | climb link _ ih =>
    obtain ⟨ex, ep, hx, hp, hlevel⟩ := hs.level_of_link link
    obtain ⟨ep', ea, hp', ha, hlt⟩ := ih
    rw [hp] at hp'
    cases hp'
    exact ⟨ex, ea, hx, ha, by omega⟩

/-- In a shaped store no unit descends from itself. -/
theorem Shaped.not_descends_self (hs : s.Shaped st) {t x : Ident} : ¬ s.Descends t x x := by
  intro h
  obtain ⟨ex, ex', hx, hx', hlt⟩ := hs.level_lt_of_descends h
  rw [hx] at hx'
  cases hx'
  omega

/-! ## §3 Relocating a subtree -/

section Relocate

variable {x : Entity} {c : Edit} {rows : List Placement}

/-- After writing rows that leave `x` alone and then editing `x`, each unit of a keyed
store is either the edited `x` or its own rows applied. -/
theorem Keyed.entities_relocated (hk : s.Keyed) (hx : x ∈ s.entities)
    (hxr : x.id ∉ rows.map Placement.id) :
    ((s.writeRows rows).modify x.id (stamp c)).entities =
      s.entities.map (fun e => if e.id = x.id then stamp c x else rowsApplied rows e) := by
  simp only [Store.modify, writeRows_entities, List.map_map]
  refine List.map_congr_left fun e he => ?_
  by_cases hex : e.id = x.id
  · rw [hk.eq_of_id_eq he hx hex]
    simp [rowsApplied_of_not_mem hxr]
  · simp [hex]

/-- Relocating the subtree of `x`: when the store is shaped, the plan derives every
descendant from the head's new place, and the head's new parent link resolves, within the
depth bound, to a unit outside the subtree, the store after the commit is shaped. -/
theorem Shaped.relocate (hs : s.Shaped st) (hx : x ∈ s.entities)
    {final : List (Ident × String × Int)}
    (hplan : Forest.Plan st s x (stamp c x).path (stamp c x).level rows final)
    (hten : (stamp c x).tenant = x.tenant) (hact : (stamp c x).isActive = true)
    (hplaced : s.Placed st (stamp c x))
    (hbound : 0 ≤ (stamp c x).level ∧ (stamp c x).level ≤ st.maxDepth)
    (houtside : ∀ p, (stamp c x).parent = some p →
      p ≠ x.id ∧ p ∉ (s.descendants x.id x.tenant).map Entity.id) :
    ((s.writeRows rows).modify x.id (stamp c)).Shaped st := by
  have hk := hs.keyed
  set D := s.descendants x.id x.tenant with hD
  set s' := (s.writeRows rows).modify x.id (stamp c) with hs'
  set φ : Entity → Entity := fun e => if e.id = x.id then stamp c x else rowsApplied rows e
    with hφ
  have hφid : ∀ e, (φ e).id = e.id := by
    intro e
    by_cases hex : e.id = x.id <;> simp [hφ, hex]
  have hents : s'.entities = s.entities.map φ :=
    hk.entities_relocated hx hplan.head_not_mem_rows
  have hfind : ∀ y, s'.find? y = (s.find? y).map φ := find?_of_map hφid hents
  have hid_desc : ∀ e ∈ s.entities, e.id ∈ D.map Entity.id → e ∈ D := by
    intro e he hm
    obtain ⟨d, hd, hde⟩ := List.mem_map.1 hm
    rw [← hk.eq_of_id_eq (mem_descendants hd).1 he hde]
    exact hd
  have untouched : ∀ e ∈ s.entities, e.id ≠ x.id → e ∉ D → φ e = e := by
    intro e he hex hed
    simp only [hφ, if_neg hex]
    refine rowsApplied_of_not_mem fun hm => hed (hid_desc e he ?_)
    obtain ⟨r, hr, hre⟩ := List.mem_map.1 hm
    exact hre ▸ hplan.rowsBelow r hr
  -- what the relocated store finds: the new head, the descendants' rows, the rest as before
  have act_other : ∀ y t, y ≠ x.id → y ∉ D.map Entity.id → s'.active? y t = s.active? y t := by
    intro y t hyx hyd
    simp only [active?, hfind]
    cases hy : s.find? y with
    | none => rfl
    | some e =>
      obtain ⟨he, rfl⟩ := hk.find?_eq_some_iff.1 hy
      rw [Option.map_some, untouched e he hyx (fun hed => hyd (List.mem_map_of_mem hed))]
  have act_head : s'.active? x.id x.tenant = some (stamp c x) := by
    have hφx : φ x = stamp c x := by simp [hφ]
    simp only [active?, hfind, hk.find?_of_mem hx, Option.map_some, hφx, Option.filter_some]
    rw [if_pos (by simp [Entity.activeIn, hten, hact])]
  have act_desc : ∀ d ∈ D, s'.active? d.id x.tenant = some (rowsApplied rows d) := by
    intro d hd
    obtain ⟨hdm, hda, hdx⟩ := mem_descendants hd
    have hφd : φ d = rowsApplied rows d := by simp [hφ, hdx]
    simp only [active?, hfind, hk.find?_of_mem hdm, Option.map_some, hφd, Option.filter_some]
    rw [if_pos ((relocated_rowsApplied rows d).activeIn_eq x.tenant ▸ hda)]
  -- a descendant's parent is found at the place the plan derived for it
  have parent_found : ∀ d ∈ D, ∀ p pv, d.parent = some p → final.lookup p = some pv →
      ∃ q, s'.active? p x.tenant = some q ∧ (q.path, q.level) = pv := by
    intro d hd p pv hpar hpv
    rcases hplan.keys p (by simp [hpv]) with rfl | hpd
    · refine ⟨stamp c x, act_head, ?_⟩
      rw [hplan.headValue] at hpv
      exact Option.some.inj hpv
    · obtain ⟨d', hd', rfl⟩ := List.mem_map.1 hpd
      obtain ⟨p', pv', -, -, hv', -, hrow'⟩ := hplan.planned d' hd'
      refine ⟨rowsApplied rows d', act_desc d' hd', ?_⟩
      rw [hrow']
      rw [hv'] at hpv
      exact Option.some.inj hpv
  -- an active unit outside the subtree has its parent outside too
  have parent_outside : ∀ e ∈ s.entities, e.isActive = true → e.id ≠ x.id → e ∉ D →
      ∀ p, e.parent = some p → p ≠ x.id ∧ p ∉ D.map Entity.id := by
    intro e he hea hex hed p hp
    obtain ⟨q, hq, -, -⟩ := (hs.placed e he hea).child hp
    obtain ⟨hqm, hqid, hqt, -⟩ := mem_of_active? hq
    -- a parent in the subtree would put `e`, active in the head's tenant, in the subtree
    have joins : q.tenant = x.tenant → (p = x.id ∨ ∃ d ∈ D, d.id = p) → e ∈ D :=
      fun hqx hpd =>
        mem_descendants_of_parent he (by simp [Entity.activeIn, hea, ← hqt, hqx]) hex hp hpd
    constructor
    · rintro rfl
      have hqx : q = x := hk.eq_of_id_eq hqm hx hqid
      exact hed (joins (by rw [hqx]) (.inl rfl))
    · intro hpd
      obtain ⟨d, hd, hdp⟩ := List.mem_map.1 hpd
      have hqd : q = d := hk.eq_of_id_eq hqm (mem_descendants hd).1 (hqid.trans hdp.symm)
      have hdt : d.tenant = x.tenant := by
        have hda := (mem_descendants hd).2.1
        simp only [Entity.activeIn, Bool.and_eq_true, beq_iff_eq] at hda
        exact hda.1
      exact hed (joins (by rw [hqd, hdt]) (.inr ⟨d, hd, hdp⟩))
  refine ⟨(hk.writeRows rows).modify (id_stamp c), ?_, ?_⟩
  · intro e' he' hact'
    rw [hents, List.mem_map] at he'
    obtain ⟨e, he, rfl⟩ := he'
    by_cases hex : e.id = x.id
    · -- the head, below a parent outside the subtree, which is found as before
      have hφe : φ e = stamp c x := by simp [hφ, hex]
      rw [hφe]
      exact hplaced.of_active fun p hp => act_other p _ (houtside p hp).1 (houtside p hp).2
    by_cases hed : e ∈ D
    · -- a descendant, placed from the place derived for its parent
      have hφe : φ e = rowsApplied rows e := by simp [hφ, hex]
      rw [hφe]
      have hrel := relocated_rowsApplied rows e
      obtain ⟨p, pv, hpar, hpv, -, -, hrow⟩ := hplan.planned e hed
      obtain ⟨q, hq, hqpv⟩ := parent_found e hed p pv hpar hpv
      have het : e.tenant = x.tenant := by
        have hea := (mem_descendants hed).2.1
        simp only [Entity.activeIn, Bool.and_eq_true, beq_iff_eq] at hea
        exact hea.1
      refine ⟨some q, ?_, ?_⟩
      · rw [hrel.parent_eq, hpar, hrel.tenant_eq, het]
        exact hq
      · rw [hrow, ← hqpv, hrel.name_eq]
        rfl
    · -- any other unit, with its parent outside the subtree
      rw [untouched e he hex hed] at hact' ⊢
      exact (hs.placed e he hact').of_active fun p hp =>
        act_other p _ (parent_outside e he hact' hex hed p hp).1
          (parent_outside e he hact' hex hed p hp).2
  · intro e' he' hact'
    rw [hents, List.mem_map] at he'
    obtain ⟨e, he, rfl⟩ := he'
    by_cases hex : e.id = x.id
    · have hφe : φ e = stamp c x := by simp [hφ, hex]
      rw [hφe]
      exact hbound
    by_cases hed : e ∈ D
    · have hφe : φ e = rowsApplied rows e := by simp [hφ, hex]
      rw [hφe]
      obtain ⟨p, pv, -, hpv, -, hdepth, hrow⟩ := hplan.planned e hed
      have hlevel : (rowsApplied rows e).level = pv.2 + 1 := by
        simpa [Settings.childOf] using congrArg Prod.snd hrow
      have hpos := hplan.nonneg p pv hpv
      rw [hlevel]
      simp only [Settings.childOf] at hdepth
      omega
    · rw [untouched e he hex hed] at hact' ⊢
      exact hs.bounded e he hact'

end Relocate

/-- Retiring a unit that no active unit names as its parent keeps a store shaped. -/
theorem Shaped.retire (hs : s.Shaped st) {x : Entity} {g : Entity → Entity}
    (hx : x ∈ s.entities) (hg : ∀ e, (g e).id = e.id) (hretired : (g x).isActive = false)
    (hchildren : s.countChildren x.id x.tenant = 0) : (s.modify x.id g).Shaped st := by
  have hk := hs.keyed
  -- an active unit naming `x` as parent would be an active child of `x` in its tenant
  have no_child : ∀ e ∈ s.entities, e.isActive = true → e.parent ≠ some x.id := by
    intro e he hea hp
    obtain ⟨q, hq, -, -⟩ := (hs.placed e he hea).child hp
    obtain ⟨hqm, hqid, hqt, -⟩ := mem_of_active? hq
    have hqx : q = x := hk.eq_of_id_eq hqm hx hqid
    have counted : e ∈ s.childrenOf x.id x.tenant := by
      simp [childrenOf, activeOf, isChildOf, Entity.activeIn, he, hea, hp, ← hqx, hqt]
    have := List.length_pos_of_mem counted
    simp only [countChildren] at hchildren
    omega
  have other : ∀ e ∈ s.entities, e.id ≠ x.id →
      (if e.id == x.id then g e else e) = e := fun e _ hex => by simp [hex]
  refine ⟨hk.modify hg, ?_, ?_⟩
  · intro e' he' hact'
    simp only [Store.modify, List.mem_map] at he'
    obtain ⟨e, he, rfl⟩ := he'
    by_cases hex : e.id = x.id
    · rw [hk.eq_of_id_eq he hx hex] at hact'
      simp [hretired] at hact'
    · rw [other e he hex] at hact' ⊢
      refine (hs.placed e he hact').of_active fun p hp => ?_
      have hpx : p ≠ x.id := fun h => no_child e he hact' (h ▸ hp)
      simp only [active?, find?_modify_of_ne hg hpx]
  · intro e' he' hact'
    simp only [Store.modify, List.mem_map] at he'
    obtain ⟨e, he, rfl⟩ := he'
    by_cases hex : e.id = x.id
    · rw [hk.eq_of_id_eq he hx hex] at hact'
      simp [hretired] at hact'
    · rw [other e he hex] at hact' ⊢
      exact hs.bounded e he hact'

/-- A unit found in a store is found, the same, after a draft is placed. -/
theorem find?_place_of_some {d : Draft} {y : Ident} {e : Entity} (h : s.find? y = some e) :
    (s.place d).2.find? y = some e := by
  simp only [find?, entities_place, List.find?_append] at h ⊢
  rw [h]
  rfl

/-- Placing a draft that stands where its parent link puts it, within the depth bound,
keeps a store shaped. -/
theorem Shaped.place (hs : s.Shaped st) {d : Draft}
    (hplaced : s.Placed st (d.settle (Ident.serial (s.issued + 1))))
    (hbound : 0 ≤ d.level ∧ d.level ≤ st.maxDepth) : (s.place d).2.Shaped st := by
  -- a parent link that resolves before the draft is placed resolves alike after
  have keep : ∀ e : Entity, s.Placed st e → (s.place d).2.Placed st e := by
    intro e he
    obtain ⟨q, hr, hd⟩ := he
    refine ⟨q, hr.of_active fun p hp => ?_, hd⟩
    rw [hp] at hr
    cases q with
    | none => cases hr
    | some q =>
      have hfound : s.find? p = some q := (Option.filter_eq_some_iff.1 hr).1
      simp only [active?, find?_place_of_some hfound, hfound]
  refine ⟨hs.keyed.place d, ?_, ?_⟩
  · intro e he hact
    rw [entities_place, List.mem_append, List.mem_singleton] at he
    rcases he with he | rfl
    · exact keep e (hs.placed e he hact)
    · exact keep _ hplaced
  · intro e he hact
    rw [entities_place, List.mem_append, List.mem_singleton] at he
    rcases he with he | rfl
    · exact hs.bounded e he hact
    · exact hbound

/-- A parent link resolves to at most one unit. -/
theorem Resolves.unique {t : Ident} {o : Option Ident} {q q' : Option Entity}
    (h : s.Resolves t o q) (h' : s.Resolves t o q') : q = q' := by
  cases o with
  | none =>
    cases q with
    | some q => exact (h : False).elim
    | none =>
      cases q' with
      | none => rfl
      | some q' => exact (h' : False).elim
  | some p =>
    cases q with
    | none => cases h
    | some q =>
      cases q' with
      | none => cases h'
      | some q' =>
        have hq : s.active? p t = some q := h
        have hq' : s.active? p t = some q' := h'
        rw [hq] at hq'
        exact hq'

/-- In a shaped store a level derived from what a link resolves to is not negative. -/
theorem Shaped.derive_level_nonneg (hs : s.Shaped st) {t : Ident} {o : Option Ident}
    {q : Option Entity} {name path : String} {level : Int} (hr : s.Resolves t o q)
    (hd : st.derive name q = (path, level)) : 0 ≤ level := by
  cases o with
  | none =>
    cases q with
    | none =>
      simp only [Settings.derive, Prod.mk.injEq] at hd
      omega
    | some q => cases hr
  | some p =>
    cases q with
    | none => cases hr
    | some q =>
      obtain ⟨hqm, -, -, hqa⟩ := mem_of_active? (show s.active? p t = some q from hr)
      have := (hs.bounded q hqm hqa).1
      simp only [Settings.derive, Settings.childOf, Prod.mk.injEq] at hd
      omega

/-- A move that closes no cycle has climbed from the new parent to a root without meeting
the unit. -/
theorem wouldCycle_false {maxDepth : Int} {id p t : Ident}
    (h : s.wouldCycle maxDepth id p t = .ok false) :
    ∃ chain, s.ancestry maxDepth p t = .ok chain ∧ ∀ e ∈ chain, e.id ≠ id := by
  unfold wouldCycle at h
  split at h
  · cases h
  · split at h
    · rename_i chain hchain
      simp only [Except.ok.injEq, List.any_eq_false, beq_iff_eq] at h
      exact ⟨chain, hchain, h⟩
    · cases h

/-- An active unit of the tenant found by `getActive`. -/
theorem getActive_ok {id t : Ident} {e : Entity} (h : s.getActive id t = .ok e) :
    s.active? id t = some e := by
  unfold getActive at h
  split at h
  · rename_i he
    cases h
    exact he
  · cases h

end Store

/-! ## §4 What each write resolves -/

namespace Forest

open Store

variable {f f' : Forest} {t : Ident} {actor : Option Ident} {e : Entity}

/-- A resolved parent is an active unit of the tenant. -/
theorem resolveParent_ok {p : Ident} {P : Entity} (h : f.resolveParent p t = .ok P) :
    f.store.active? p t = some P := by
  unfold resolveParent at h
  split at h
  · rename_i hP
    cases h
    exact hP
  · split at h
    · split at h <;> cases h
    · cases h

/-- The parent a create request names resolves to what `parentOf` returns. -/
theorem parentOf_ok {r : Option Ident} {parent : Option Entity}
    (h : f.parentOf t r = .ok parent) : f.store.Resolves t r parent := by
  cases r with
  | none =>
    simp only [parentOf, Except.ok.injEq] at h
    subst h
    trivial
  | some p =>
    simp only [parentOf] at h
    cases hr : f.resolveParent p t with
    | error => simp [hr, Except.map] at h
    | ok P =>
      simp only [hr, Except.map, Except.ok.injEq] at h
      subst h
      exact resolveParent_ok hr

/-- The current parent of a renamed unit resolves to what `currentParent` returns. -/
theorem currentParent_ok {r : Option Ident} {parent : Option Entity}
    (h : f.currentParent t r = .ok parent) : f.store.Resolves t r parent := by
  cases r with
  | none =>
    simp only [currentParent, Except.ok.injEq] at h
    subst h
    trivial
  | some p =>
    simp only [currentParent] at h
    cases hr : f.store.getActive p t with
    | error => simp [hr, Except.map] at h
    | ok P =>
      simp only [hr, Except.map, Except.ok.injEq] at h
      subst h
      exact getActive_ok hr

/-- The destination of a move resolves to what `destination` returns; a new parent is not
the unit itself, and closes no cycle. -/
theorem destination_ok {id : Ident} {target : Option Ident} {parent : Option Entity}
    (h : f.destination t id target = .ok parent) :
    f.store.Resolves t target parent ∧ ∀ p, target = some p → p ≠ id ∧
      f.store.wouldCycle f.settings.maxDepth id p t = .ok false := by
  cases target with
  | none =>
    simp only [destination, Except.ok.injEq] at h
    subst h
    exact ⟨trivial, fun p hp => by cases hp⟩
  | some p =>
    simp only [destination] at h
    by_cases hp : p = id
    · simp [hp, bind, Except.bind, throw, throwThe, MonadExceptOf.throw] at h
    · simp only [hp, beq_iff_eq, if_false, bind, Except.bind] at h
      split at h
      · cases h
      rename_i P hP
      split at h
      · cases h
      rename_i cyc hcyc
      split at h
      · simp [throw, throwThe, MonadExceptOf.throw] at h
      · rename_i hc
        simp only [pure, Except.pure, Except.ok.injEq] at h
        subst h
        refine ⟨resolveParent_ok hP, fun p' hp' => ?_⟩
        cases hp'
        simp only [Bool.not_eq_true] at hc
        exact ⟨hp, hc ▸ hcyc⟩

/-- A depth check that passes bounds the level. -/
theorem checkDepth_ok {st : Settings} {level : Int} (h : st.checkDepth level = .ok ()) :
    level ≤ st.maxDepth := by
  unfold Settings.checkDepth at h
  split at h
  · cases h
  · omega

/-- A derived level depends on the parent only, not on the name. -/
theorem derive_level (st : Settings) (name name' : String) (q : Option Entity) :
    (st.derive name q).2 = (st.derive name' q).2 := by
  cases q <;> rfl

/-! ## §5 One call at a time, and every reachable store -/

/-- A create keeps the store shaped: the new unit stands below the parent it resolved,
within the depth bound. -/
theorem shaped_create {r : CreateRequest} (hs : f.store.Shaped f.settings)
    (h : (create t actor r).run f = .ok e f') : f'.store.Shaped f.settings := by
  obtain ⟨name, parent, path, level, -, -, hp, hd, hdepth, -, s', hins, rfl⟩ := create_ok h
  obtain ⟨-, hplace⟩ := insert_ok.1 hins
  show s'.Shaped f.settings
  rw [show s' = (f.store.place _).2 from (congrArg Prod.snd hplace).symm]
  have hr := parentOf_ok hp
  exact hs.place ⟨parent, hr, hd⟩ ⟨hs.derive_level_nonneg hr hd, checkDepth_ok hdepth⟩

/-- A rename keeps the store shaped: the unit keeps its parent and level, and the cascade
derives its subtree again. -/
theorem shaped_rename {id : Ident} {newName : String} (hs : f.store.Shaped f.settings)
    (h : (rename t actor id newName).run f = .ok e f') : f'.store.Shaped f.settings := by
  obtain ⟨name, node, -, hnode, ⟨-, -, rfl⟩ |
    ⟨-, -, parent, path, level, cascade, hp, hd, hc, s', hcommit, rfl⟩⟩ := rename_ok h
  · exact hs
  obtain ⟨-, -, -, -, rfl⟩ := commit_ok hcommit
  have hnode' := getActive_ok hnode
  obtain ⟨hmem, rfl, hten, hact⟩ := mem_of_active? hnode'
  subst hten
  have hr := currentParent_ok hp
  have hlevel0 := hs.derive_level_nonneg hr hd
  obtain ⟨final, hplan⟩ := planCascade_ok hs.keyed hc hlevel0
  -- the parent is the one the unit already had, so the level is the unit's own
  obtain ⟨q, hq, hqd⟩ := hs.placed node hmem hact
  have hlevel : level = node.level := by
    calc level = (f.settings.derive name parent).2 := by rw [hd]
      _ = (f.settings.derive node.name q).2 := by rw [hr.unique hq, derive_level]
      _ = node.level := by rw [hqd]
  refine hs.relocate hmem hplan rfl hact ⟨parent, hr, hd⟩
    ⟨hlevel0, hlevel ▸ (hs.bounded node hmem hact).2⟩ fun p hp => ?_
  -- a parent that is the unit or below it would make the unit descend from itself
  have link : f.store.ParentLink node.tenant node.id p := ⟨node, hnode', hp⟩
  refine ⟨fun hpx => ?_, fun hpd => ?_⟩
  · subst hpx
    exact hs.not_descends_self (.parent link)
  · obtain ⟨d, hd, rfl⟩ := List.mem_map.1 hpd
    exact hs.not_descends_self (.climb link (hs.keyed.descends_of_mem_descendants hd))

/-- A move keeps the store shaped: the new parent is outside the subtree, the new level is
within the depth bound, and the cascade derives the subtree again. -/
theorem shaped_move {id : Ident} {target : Option Ident} (hs : f.store.Shaped f.settings)
    (h : (move t actor id target).run f = .ok e f') : f'.store.Shaped f.settings := by
  obtain ⟨node, parent, hnode, hdest, ⟨-, -, rfl⟩ |
    ⟨-, path, level, cascade, hd, hdepth, -, hc, s', hcommit, rfl⟩⟩ := move_ok h
  · exact hs
  obtain ⟨-, -, -, -, rfl⟩ := commit_ok hcommit
  have hnode' := getActive_ok hnode
  obtain ⟨hmem, rfl, hten, hact⟩ := mem_of_active? hnode'
  subst hten
  obtain ⟨hr, hnew⟩ := destination_ok hdest
  have hlevel0 := hs.derive_level_nonneg hr hd
  obtain ⟨final, hplan⟩ := planCascade_ok hs.keyed hc hlevel0
  refine hs.relocate hmem hplan rfl hact ⟨parent, hr, hd⟩ ⟨hlevel0, checkDepth_ok hdepth⟩
    fun p hp => ?_
  obtain ⟨hne, hcyc⟩ := hnew p hp
  refine ⟨hne, fun hpd => ?_⟩
  -- the climb from the new parent met no unit of the subtree's head
  obtain ⟨chain, hchain, hfree⟩ := wouldCycle_false hcyc
  obtain ⟨d, hd, rfl⟩ := List.mem_map.1 hpd
  obtain ⟨u, hu, huid⟩ := (Walk.ancestry_ok hchain).mem_of_descends
    (hs.keyed.descends_of_mem_descendants hd)
  exact hfree u hu huid

/-- A remove keeps the store shaped: the retired unit has no active child. -/
theorem shaped_remove {id : Ident} (hs : f.store.Shaped f.settings)
    (h : (remove t actor id).run f = .ok e f') : f'.store.Shaped f.settings := by
  obtain ⟨node, hnode, hcount, -, -, s', hupd, rfl⟩ := remove_ok h
  obtain ⟨-, -, -, -, rfl⟩ := commit_ok hupd
  obtain ⟨hmem, rfl, hten, -⟩ := mem_of_active? (getActive_ok hnode)
  subst hten
  exact hs.retire hmem (id_stamp _) rfl hcount

/-- Every call keeps the store shaped under the forest's settings. -/
theorem shaped_after (hs : f.store.Shaped f.settings) (c : Call) :
    (f.after c).store.Shaped f.settings := by
  rcases after_cases f c with same | ⟨r, e, -, h⟩ | ⟨id, name, e, -, h⟩ |
    ⟨id, target, e, -, h⟩ | ⟨id, e, -, h⟩
  · rw [same.1]
    exact hs
  · exact shaped_create hs h
  · exact shaped_rename hs h
  · exact shaped_move hs h
  · exact shaped_remove hs h

/-- Every reachable forest has a store shaped under its settings. -/
theorem Reachable.shaped {st : Settings} (h : Reachable st f) : f.store.Shaped st := by
  induction h with
  | empty => exact shaped_empty
  | @after f c hr ih =>
    have hst : f.settings = st := hr.settings_eq
    have step := shaped_after (hst ▸ ih) c
    rwa [hst] at step

end Forest

end TenantForest

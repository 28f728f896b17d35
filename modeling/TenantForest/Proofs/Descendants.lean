import TenantForest.Proofs.Keys
import TenantForest.Store.Lineage
import TenantForest.Walk.Descendants

/-!
# What the descendant walk yields

The walk behind `Store.descendants` keeps a pool of units not yet queued and a stack of
units to yield. Over any pool and stack it

* yields every unit of its stack, and every unit of the pool whose parent it yields: what
  it yields is closed under children;
* yields nothing twice and nothing from outside: its output is a sub-permutation of the
  stack followed by the pool;
* yields every unit after its parent, unless the parent was known before the walk began.

For the descendants of a unit `x` of a keyed store these give what a cascade rests on: the
descendants are active units of the tenant other than `x`, with distinct identifiers; they
come parents first from `x`; every active child of `x` or of a descendant is a descendant;
and every descendant descends from `x`.

  §1 Parents first — the order in which a cascade finds every parent's new place at hand.
  §2 The walk.
  §3 Descendants.
-/

namespace TenantForest

/-! ## §1 Parents first -/

/-- Every unit of the list has its parent among `anchor` or earlier in the list. -/
inductive ParentsFirst : List Ident → List Entity → Prop
  /-- Nothing to place. -/
  | nil {anchor : List Ident} : ParentsFirst anchor []
  /-- The first unit's parent is known, and the rest is placed knowing it too. -/
  | cons {anchor : List Ident} {e : Entity} {l : List Entity} {p : Ident} :
      e.parent = some p → p ∈ anchor → ParentsFirst (e.id :: anchor) l →
      ParentsFirst anchor (e :: l)

/-- Units listed parents first from units that descend from `x` (or are `x`) descend from
`x`, when each is the active unit of the tenant with its identifier. -/
theorem ParentsFirst.descends {s : Store} {t x : Ident} {anchor : List Ident} {l : List Entity}
    (hp : ParentsFirst anchor l) (hl : ∀ e ∈ l, s.active? e.id t = some e)
    (ha : ∀ a ∈ anchor, a = x ∨ s.Descends t a x) : ∀ e ∈ l, s.Descends t e.id x := by
  induction hp with
  | nil => intro e he; cases he
  | @cons anchor e l p hpar hmem _ ih =>
    have link : s.ParentLink t e.id p := ⟨e, hl e List.mem_cons_self, hpar⟩
    have self : s.Descends t e.id x := by
      rcases ha p hmem with rfl | hd
      · exact .parent link
      · exact .climb link hd
    intro e' he'
    rcases List.mem_cons.1 he' with rfl | he'
    · exact self
    · refine ih (fun e he => hl e (List.mem_cons_of_mem _ he)) ?_ e' he'
      intro a ha'
      rcases List.mem_cons.1 ha' with rfl | ha'
      · exact .inr self
      · exact ha a ha'

/-! ## §2 The walk -/

namespace Store

/-- The children split off a pool are its units whose parent link names the unit. -/
theorem mem_splitChildren_fst {id : Ident} {pool : List Entity} {e : Entity} :
    e ∈ (splitChildren id pool).1 ↔ e ∈ pool ∧ e.parent = some id := by
  simp [splitChildren, isChildOf]

/-- The rest of the pool is its units whose parent link names another unit, or none. -/
theorem mem_splitChildren_snd {id : Ident} {pool : List Entity} {e : Entity} :
    e ∈ (splitChildren id pool).2 ↔ e ∈ pool ∧ e.parent ≠ some id := by
  simp [splitChildren, isChildOf]

/-- Splitting off the children rearranges the pool. -/
theorem splitChildren_perm (id : Ident) (pool : List Entity) :
    ((splitChildren id pool).1 ++ (splitChildren id pool).2).Perm pool :=
  List.filter_append_perm _ pool

end Store

namespace Walk

open Store

/-- The walk yields nothing twice and nothing but units of its stack and pool. -/
theorem below_subperm (pool stack : List Entity) : (below pool stack).Subperm (stack ++ pool) := by
  induction pool, stack using below.induct with
  | case1 pool => simp [below]
  | case2 pool x rest _ ih =>
    rw [below.eq_2, List.cons_append, List.subperm_cons]
    -- the children go to the stack, the others stay in the pool
    have regroup : (((splitChildren x.id pool).1 ++ rest) ++ (splitChildren x.id pool).2).Perm
        (rest ++ pool) := by
      rw [List.append_assoc]
      exact (List.perm_append_comm_assoc _ _ _).trans ((splitChildren_perm x.id pool).append_left rest)
    exact ih.trans regroup.subperm

/-- The walk yields every unit of its stack. -/
theorem mem_below_of_mem_stack {pool stack : List Entity} {e : Entity} (he : e ∈ stack) :
    e ∈ below pool stack := by
  induction pool, stack using below.induct with
  | case1 pool => cases he
  | case2 pool x rest _ ih =>
    rw [below.eq_2]
    rcases List.mem_cons.1 he with rfl | he
    · exact List.mem_cons_self
    · exact List.mem_cons_of_mem _ (ih (List.mem_append_right _ he))

/-- The walk is closed under children: a unit of the pool whose parent the walk yields is
yielded too. -/
theorem mem_below_of_parent {pool stack : List Entity} {y z : Entity}
    (hy : y ∈ below pool stack) (hz : z ∈ pool) (hp : z.parent = some y.id) :
    z ∈ below pool stack := by
  induction pool, stack using below.induct with
  | case1 pool => simp [below] at hy
  | case2 pool x rest _ ih =>
    rw [below.eq_2] at hy ⊢
    -- `z` is either split off as a child of the yielded top, or stays in the pool
    by_cases hx : z.parent = some x.id
    · exact List.mem_cons_of_mem _
        (mem_below_of_mem_stack (List.mem_append_left _ (mem_splitChildren_fst.2 ⟨hz, hx⟩)))
    · rcases List.mem_cons.1 hy with rfl | hy
      · exact absurd hp hx
      · exact List.mem_cons_of_mem _ (ih hy (mem_splitChildren_snd.2 ⟨hz, hx⟩))

/-- When every unit of the stack has its parent among `anchor`, the walk yields parents
first from `anchor`. -/
theorem parentsFirst_below (pool stack : List Entity) (anchor : List Ident)
    (h : ∀ e ∈ stack, ∃ p, e.parent = some p ∧ p ∈ anchor) :
    ParentsFirst anchor (below pool stack) := by
  induction pool, stack using below.induct generalizing anchor with
  | case1 pool => simpa [below] using ParentsFirst.nil
  | case2 pool x rest _ ih =>
    rw [below.eq_2]
    obtain ⟨p, hp, hpa⟩ := h x List.mem_cons_self
    refine .cons hp hpa (ih (x.id :: anchor) ?_)
    intro e he
    rcases List.mem_append.1 he with he | he
    · exact ⟨x.id, (mem_splitChildren_fst.1 he).2, List.mem_cons_self⟩
    · obtain ⟨q, hq, hqa⟩ := h e (List.mem_cons_of_mem _ he)
      exact ⟨q, hq, List.mem_cons_of_mem _ hqa⟩

end Walk

/-! ## §3 Descendants -/

namespace Store

variable {s : Store} {x t : Ident}

/-- The pool the descendant walk starts from: the active units of the tenant but `x`. -/
theorem descendants_eq (s : Store) (x t : Ident) :
    s.descendants x t = Walk.below
      (splitChildren x ((s.activeOf t).filter (fun e => e.id != x))).2
      (splitChildren x ((s.activeOf t).filter (fun e => e.id != x))).1 := rfl

/-- The descendants rearrange part of the active units of the tenant but `x`. -/
theorem descendants_subperm (s : Store) (x t : Ident) :
    (s.descendants x t).Subperm ((s.activeOf t).filter (fun e => e.id != x)) := by
  rw [descendants_eq]
  exact (Walk.below_subperm _ _).trans (splitChildren_perm _ _).subperm

/-- A descendant is an active unit of the tenant other than `x`. -/
theorem mem_descendants {e : Entity} (h : e ∈ s.descendants x t) :
    e ∈ s.entities ∧ e.activeIn t = true ∧ e.id ≠ x := by
  have h' := (descendants_subperm s x t).subset h
  simp only [List.mem_filter, mem_activeOf, bne_iff_ne, ne_eq] at h'
  exact ⟨h'.1.1, h'.1.2, h'.2⟩

/-- In a keyed store the descendants have distinct identifiers. -/
theorem Keyed.nodup_descendants (hk : s.Keyed) : ((s.descendants x t).map Entity.id).Nodup := by
  have pool : ((s.activeOf t).filter (fun e => e.id != x)).Nodup :=
    (List.Nodup.of_map Entity.id hk.nodup).sublist (List.filter_sublist.trans List.filter_sublist)
  obtain ⟨l, hperm, hsub⟩ := descendants_subperm s x t
  have nodup : (s.descendants x t).Nodup := hperm.nodup_iff.1 (pool.sublist hsub)
  exact nodup.map_on fun a ha b hb h => hk.eq_of_id_eq (mem_descendants ha).1 (mem_descendants hb).1 h

/-- The descendants come parents first from `x`. -/
theorem parentsFirst_descendants (s : Store) (x t : Ident) :
    ParentsFirst [x] (s.descendants x t) := by
  rw [descendants_eq]
  refine Walk.parentsFirst_below _ _ _ fun e he => ?_
  exact ⟨x, (mem_splitChildren_fst.1 he).2, List.mem_cons_self⟩

/-- Every active unit of the tenant other than `x` whose parent is `x` or a descendant is a
descendant. -/
theorem mem_descendants_of_parent {e : Entity} {p : Ident} (he : e ∈ s.entities)
    (ht : e.activeIn t = true) (hx : e.id ≠ x) (hp : e.parent = some p)
    (hpd : p = x ∨ ∃ d ∈ s.descendants x t, d.id = p) : e ∈ s.descendants x t := by
  have pool : e ∈ (s.activeOf t).filter (fun e => e.id != x) := by
    simp [mem_activeOf, he, ht, hx]
  rw [descendants_eq]
  by_cases hc : e.parent = some x
  · exact Walk.mem_below_of_mem_stack (mem_splitChildren_fst.2 ⟨pool, hc⟩)
  · rcases hpd with rfl | ⟨d, hd, rfl⟩
    · exact absurd hp hc
    · rw [descendants_eq] at hd
      exact Walk.mem_below_of_parent hd (mem_splitChildren_snd.2 ⟨pool, hc⟩) hp

/-- In a keyed store every descendant descends from `x`. -/
theorem Keyed.descends_of_mem_descendants (hk : s.Keyed) {e : Entity}
    (he : e ∈ s.descendants x t) : s.Descends t e.id x := by
  refine (parentsFirst_descendants s x t).descends (fun d hd => ?_) (fun a ha => ?_) e he
  · obtain ⟨hm, ht, -⟩ := mem_descendants hd
    exact hk.active?_of_mem hm ht
  · exact .inl (List.mem_singleton.1 ha)

end Store

end TenantForest

import TenantForest.Proofs.Descendants

/-!
# The descendant walk on any store

`Store.descendants` is read here against two relations that mention no stack and no pool, on
every store whose identifiers are distinct, however corrupt its parent links: cycles, units
that are their own parent, links to retired units or into other tenants.

* `Store.HangsBelow s t r x a`: climbing parent links from `x` through active units of `t`,
  none of them `r`, arrives at `a`. Every link into `r` is cut there, so what hangs below `r`
  is a tree even when a cycle runs through `r`.
* `Store.Hanging s t r roots l`: `l` lists the trees hanging from `roots`, cut at `r`, in
  pre-order: a root, then the trees hanging from its active children other than `r`, in
  insertion order, then the trees of the other roots. Given the roots, `l` is unique
  (`Hanging.unique`).

Main statement: `descendants_in_preorder`. The walk from `r` yields every unit once, never
`r`, and exactly the active units of the tenant whose climb reaches `r`; and it lists them as
the trees hanging from the children of `r`, in pre-order.

The walk keeps one invariant, `Walking`: its pool is part of the active units of the tenant
other than `r`, in insertion order, and apart from its stack; every unit hanging below a unit
of the stack is still in the pool; and no unit of the stack hangs below a unit of the stack,
itself included. Cutting at `r` gives it at the start (`walking_start`), and one step keeps it
(`Walking.step`). Under it the children the walk takes from the pool are all the children of
the unit it yields (`Walking.children_eq`), so one functional induction over the walk gives
the pre-order (`hanging_below`).

  §1 Hanging below a unit.
  §2 Trees listed in pre-order.
  §3 The walk.
  §4 Descendants.
-/

namespace TenantForest

namespace Store

variable {s : Store} {t r : Ident}

/-! ## §1 Hanging below a unit -/

/-- Climbing from `x` through active units of tenant `t`, none of them `r`, arrives at `a`. -/
inductive HangsBelow (s : Store) (t r : Ident) : Ident → Ident → Prop
  /-- The parent link of `x` names `a`. -/
  | parent {x a : Ident} : s.ParentLink t x a → HangsBelow s t r x a
  /-- The parent link of `x` names a unit other than `r` that hangs below `a`. -/
  | climb {x p a : Ident} : s.ParentLink t x p → p ≠ r → HangsBelow s t r p a →
      HangsBelow s t r x a

/-- A unit has one parent link. -/
theorem ParentLink.unique {x a b : Ident} (ha : s.ParentLink t x a) (hb : s.ParentLink t x b) :
    a = b := by
  obtain ⟨e, he, hea⟩ := ha
  obtain ⟨e', he', heb⟩ := hb
  rw [he, Option.some.injEq] at he'
  subst he'
  exact Option.some.inj (hea.symm.trans heb)

/-- A climb from a unit whose parent link names `p` arrives at `p`, or goes on from `p`. -/
theorem HangsBelow.of_link {x p a : Ident} (hp : s.ParentLink t x p)
    (h : s.HangsBelow t r x a) : a = p ∨ (p ≠ r ∧ s.HangsBelow t r p a) := by
  cases h with
  | parent link => exact .inl (link.unique hp)
  | climb link hne rest =>
    obtain rfl := link.unique hp
    exact .inr ⟨hne, rest⟩

/-- Climbs compose through a unit other than `r`. -/
theorem HangsBelow.trans {x y a : Ident} (hxy : s.HangsBelow t r x y) (hy : y ≠ r)
    (hya : s.HangsBelow t r y a) : s.HangsBelow t r x a := by
  induction hxy with
  | parent link => exact .climb link hy hya
  | climb link hne _ ih => exact .climb link hne (ih hy hya)

/-- A climb is a descent. -/
theorem HangsBelow.descends {x a : Ident} (h : s.HangsBelow t r x a) : s.Descends t x a := by
  induction h with
  | parent link => exact .parent link
  | climb link _ _ ih => exact .climb link ih

/-- A descent to `r` arrives at `r` a first time: it hangs below `r`. -/
theorem Descends.hangsBelow {x : Ident} (h : s.Descends t x r) : s.HangsBelow t r x r := by
  generalize ha : r = a at h
  induction h with
  | parent link =>
    subst ha
    exact .parent link
  | @climb x p a link _ ih =>
    subst ha
    by_cases hp : p = r
    · subst hp
      exact .parent link
    · exact .climb link hp (ih rfl)

/-! ## §2 Trees listed in pre-order -/

/-- `l` lists the trees of tenant `t` hanging from the units `roots`, cut at `r`, in
pre-order. -/
inductive Hanging (s : Store) (t r : Ident) : List Entity → List Entity → Prop
  /-- No roots, no units. -/
  | nil : Hanging s t r [] []
  /-- The first root, the trees hanging from its children, then those of the other roots. -/
  | cons {x : Entity} {roots below others : List Entity} :
      Hanging s t r ((s.childrenOf x.id t).filter (fun e => e.id != r)) below →
      Hanging s t r roots others → Hanging s t r (x :: roots) (x :: (below ++ others))

/-- The trees hanging from given roots are listed in one way only. -/
theorem Hanging.unique {roots l l' : List Entity} (h : s.Hanging t r roots l)
    (h' : s.Hanging t r roots l') : l = l' := by
  induction h generalizing l' with
  | nil =>
    cases h'
    rfl
  | cons _ _ ihb iho =>
    cases h' with
    | cons hb' ho' => rw [ihb hb', iho ho']

/-- The trees of two lists of roots are the trees of the first, then those of the second. -/
theorem Hanging.append_inv {a b l : List Entity} (h : s.Hanging t r (a ++ b) l) :
    ∃ l₁ l₂, l = l₁ ++ l₂ ∧ s.Hanging t r a l₁ ∧ s.Hanging t r b l₂ := by
  induction a generalizing l with
  | nil => exact ⟨[], l, rfl, .nil, h⟩
  | cons x a ih =>
    rw [List.cons_append] at h
    cases h with
    | @cons _ _ below others hb ho =>
      obtain ⟨l₁, l₂, rfl, h₁, h₂⟩ := ih ho
      exact ⟨x :: (below ++ l₁), l₂, by simp, .cons hb h₁, h₂⟩

/-- The active units of tenant `t` other than `r`, in insertion order. -/
def activeBut (s : Store) (t r : Ident) : List Entity :=
  (s.activeOf t).filter (fun e => e.id != r)

theorem mem_activeBut {e : Entity} :
    e ∈ s.activeBut t r ↔ e ∈ s.activeOf t ∧ e.id ≠ r := by
  simp [activeBut]

section Distinct

variable (hnd : (s.entities.map Entity.id).Nodup)
include hnd

/-- An active unit of the tenant is the active unit with its identifier. -/
theorem active?_of_mem_activeOf {e : Entity} (he : e ∈ s.activeOf t) :
    s.active? e.id t = some e := by
  obtain ⟨hm, ht⟩ := mem_activeOf.1 he
  rw [active?, Option.filter_eq_some_iff]
  exact ⟨(find?_id_eq_some_iff hnd).2 ⟨hm, rfl⟩, ht⟩

/-- Two stored units with one identifier are one unit. -/
theorem eq_of_mem_activeBut {a b : Entity} (ha : a ∈ s.activeBut t r) (hb : b ∈ s.activeBut t r)
    (h : a.id = b.id) : a = b :=
  List.inj_on_of_nodup_map hnd (mem_activeOf.1 (mem_activeBut.1 ha).1).1
    (mem_activeOf.1 (mem_activeBut.1 hb).1).1 h

/-- The active units of the tenant other than `r` are distinct. -/
theorem nodup_activeBut : (s.activeBut t r).Nodup :=
  (List.Nodup.of_map Entity.id hnd).sublist (List.filter_sublist.trans List.filter_sublist)

/-- An active child of `x` has a parent link to `x`. -/
theorem parentLink_of_mem_childrenOf {x : Ident} {e : Entity} (he : e ∈ s.childrenOf x t) :
    s.ParentLink t e.id x := by
  simp only [childrenOf, List.mem_filter, isChildOf, beq_iff_eq] at he
  exact ⟨e, active?_of_mem_activeOf hnd he.1, he.2⟩

/-- A unit listed among the trees hanging from `roots` is a root, or an active unit of the
tenant other than `r` hanging below a root. -/
theorem Hanging.mem {roots l : List Entity} (h : s.Hanging t r roots l) {e : Entity}
    (he : e ∈ l) :
    e ∈ roots ∨ (e ∈ s.activeBut t r ∧ ∃ y ∈ roots, s.HangsBelow t r e.id y.id) := by
  induction h with
  | nil => cases he
  | @cons x roots below others _ _ ihb iho =>
    rcases List.mem_cons.1 he with rfl | he
    · exact .inl List.mem_cons_self
    rcases List.mem_append.1 he with he | he
    · -- below `x`: a child of `x`, or hanging below one
      right
      rcases ihb he with hk | ⟨hm, y, hy, hey⟩
      · have hk' := (List.mem_filter.1 hk)
        refine ⟨mem_activeBut.2 ⟨(List.mem_filter.1 hk'.1).1, by simpa using hk'.2⟩,
          x, List.mem_cons_self, .parent (parentLink_of_mem_childrenOf hnd hk'.1)⟩
      · have hy' := List.mem_filter.1 hy
        exact ⟨hm, x, List.mem_cons_self,
          hey.trans (by simpa using hy'.2) (.parent (parentLink_of_mem_childrenOf hnd hy'.1))⟩
    · rcases iho he with hr | ⟨hm, y, hy, hey⟩
      · exact .inl (List.mem_cons_of_mem x hr)
      · exact .inr ⟨hm, y, List.mem_cons_of_mem x hy, hey⟩

end Distinct

/-! ## §3 The walk -/

/-- What the walk keeps while it lists the trees cut at `r`. -/
structure Walking (s : Store) (t r : Ident) (pool stack : List Entity) : Prop where
  /-- The pool is part of the active units of the tenant other than `r`, in insertion order. -/
  pool_sublist : pool.Sublist (s.activeBut t r)
  /-- The stack holds such units too, each once, and none of the pool. -/
  stack_mem : ∀ y ∈ stack, y ∈ s.activeBut t r
  nodup : stack.Nodup
  stack_not_pool : ∀ y ∈ stack, y ∉ pool
  /-- Every unit hanging below a unit of the stack is still in the pool. -/
  closed : ∀ y ∈ stack, ∀ e ∈ s.activeBut t r, s.HangsBelow t r e.id y.id → e ∈ pool
  /-- No unit of the stack hangs below a unit of the stack. -/
  apart : ∀ a ∈ stack, ∀ b ∈ stack, ¬ s.HangsBelow t r a.id b.id

section Distinct

variable (hnd : (s.entities.map Entity.id).Nodup)
include hnd

/-- The children the walk takes from the pool for the unit on top of the stack are all the
active children of that unit other than `r`, in insertion order. -/
theorem Walking.children_eq {pool rest : List Entity} {x : Entity}
    (hw : s.Walking t r pool (x :: rest)) :
    (splitChildren x.id pool).1 = (s.childrenOf x.id t).filter (fun e => e.id != r) := by
  have hall : (s.childrenOf x.id t).filter (fun e => e.id != r) =
      (s.activeBut t r).filter (isChildOf x.id) := by
    simp only [childrenOf, activeBut, List.filter_filter]
    exact List.filter_congr fun e _ => Bool.and_comm _ _
  rw [hall]
  -- a sublist of the children that holds every child is all of them
  have hsub : (splitChildren x.id pool).1.Sublist ((s.activeBut t r).filter (isChildOf x.id)) :=
    hw.pool_sublist.filter _
  refine hsub.eq_of_length_le (List.Subperm.length_le ?_)
  refine List.Nodup.subperm ((nodup_activeBut hnd).sublist List.filter_sublist) fun e he => ?_
  obtain ⟨hm, hc⟩ := List.mem_filter.1 he
  have link : s.ParentLink t e.id x.id :=
    parentLink_of_mem_childrenOf hnd (List.mem_filter.2 ⟨(mem_activeBut.1 hm).1, hc⟩)
  exact mem_splitChildren_fst.2
    ⟨hw.closed x List.mem_cons_self e hm (.parent link), by simpa [isChildOf] using hc⟩

/-- The children the walk takes for the unit on top of the stack come from the pool, and have
a parent link to that unit. -/
theorem Walking.kid {pool rest : List Entity} {x k : Entity} (hw : s.Walking t r pool (x :: rest))
    (hk : k ∈ (splitChildren x.id pool).1) :
    k ∈ pool ∧ k ∈ s.activeBut t r ∧ s.ParentLink t k.id x.id := by
  obtain ⟨hkp, hkx⟩ := mem_splitChildren_fst.1 hk
  have hka := hw.pool_sublist.subset hkp
  exact ⟨hkp, hka, k, active?_of_mem_activeOf hnd (mem_activeBut.1 hka).1, hkx⟩

/-- One step of the walk keeps its invariant: the children of the yielded unit go from the
pool to the top of the stack. -/
theorem Walking.step {pool rest : List Entity} {x : Entity} (hw : s.Walking t r pool (x :: rest)) :
    s.Walking t r (splitChildren x.id pool).2 ((splitChildren x.id pool).1 ++ rest) := by
  have hx := hw.stack_mem x List.mem_cons_self
  have hxr : x.id ≠ r := (mem_activeBut.1 hx).2
  have hxp : x ∉ pool := hw.stack_not_pool x List.mem_cons_self
  have hxrest : x ∉ rest := (List.nodup_cons.1 hw.nodup).1
  -- no unit of the new stack is `x`, or has `x` hanging below it
  have not_x : ∀ b ∈ (splitChildren x.id pool).1 ++ rest, b.id ≠ x.id := by
    intro b hb hid
    have hba : b ∈ s.activeBut t r := by
      rcases List.mem_append.1 hb with hb | hb
      · exact (hw.kid hnd hb).2.1
      · exact hw.stack_mem b (List.mem_cons_of_mem x hb)
    obtain rfl := eq_of_mem_activeBut hnd hba hx hid
    rcases List.mem_append.1 hb with hb | hb
    · exact hxp (hw.kid hnd hb).1
    · exact hxrest hb
  have x_not_below : ∀ b ∈ (splitChildren x.id pool).1 ++ rest,
      ¬ s.HangsBelow t r x.id b.id := by
    intro b hb hxb
    rcases List.mem_append.1 hb with hb | hb
    · -- `b` is a child of `x`, so `x` would hang below itself
      have hbr : b.id ≠ r := (mem_activeBut.1 (hw.kid hnd hb).2.1).2
      exact hw.apart x List.mem_cons_self x List.mem_cons_self
        (hxb.trans hbr (.parent (hw.kid hnd hb).2.2))
    · exact hw.apart x List.mem_cons_self b (List.mem_cons_of_mem x hb) hxb
  -- a child of `x` hangs below no unit of the new stack: its climb goes through `x`
  have child_not_below : ∀ e : Entity, s.ParentLink t e.id x.id →
      ∀ b ∈ (splitChildren x.id pool).1 ++ rest, ¬ s.HangsBelow t r e.id b.id := by
    intro e link b hb heb
    rcases heb.of_link link with hid | ⟨-, hxb⟩
    · exact not_x b hb hid
    · exact x_not_below b hb hxb
  refine ⟨List.filter_sublist.trans hw.pool_sublist, ?_, ?_, ?_, ?_, ?_⟩
  · intro y hy
    rcases List.mem_append.1 hy with hy | hy
    · exact (hw.kid hnd hy).2.1
    · exact hw.stack_mem y (List.mem_cons_of_mem x hy)
  · refine List.nodup_append.2 ⟨(hw.pool_sublist.nodup (nodup_activeBut hnd)).sublist
      List.filter_sublist, (List.nodup_cons.1 hw.nodup).2, ?_⟩
    rintro k hk y hy rfl
    exact hw.stack_not_pool k (List.mem_cons_of_mem x hy) (hw.kid hnd hk).1
  · intro y hy hyp
    rcases List.mem_append.1 hy with hy | hy
    · exact (mem_splitChildren_snd.1 hyp).2 (mem_splitChildren_fst.1 hy).2
    · exact hw.stack_not_pool y (List.mem_cons_of_mem x hy) (mem_splitChildren_snd.1 hyp).1
  · intro y hy e he hey
    -- `e` hangs below a unit of the old stack, so it is in the pool, and it is no child of `x`
    have hep : e ∈ pool := by
      rcases List.mem_append.1 hy with hy | hy
      · have hyr : y.id ≠ r := (mem_activeBut.1 (hw.kid hnd hy).2.1).2
        exact hw.closed x List.mem_cons_self e he (hey.trans hyr (.parent (hw.kid hnd hy).2.2))
      · exact hw.closed y (List.mem_cons_of_mem x hy) e he hey
    refine mem_splitChildren_snd.2 ⟨hep, fun hex => ?_⟩
    exact child_not_below e ⟨e, active?_of_mem_activeOf hnd (mem_activeBut.1 he).1, hex⟩ y hy
      hey
  · intro a ha b hb hab
    rcases List.mem_append.1 ha with ha | ha
    · exact child_not_below a (hw.kid hnd ha).2.2 b hb hab
    · rcases List.mem_append.1 hb with hb | hb
      · -- a unit of the rest hanging below a child of `x` hangs below `x`
        have hbr : b.id ≠ r := (mem_activeBut.1 (hw.kid hnd hb).2.1).2
        exact hw.apart a (List.mem_cons_of_mem x ha) x List.mem_cons_self
          (hab.trans hbr (.parent (hw.kid hnd hb).2.2))
      · exact hw.apart a (List.mem_cons_of_mem x ha) b (List.mem_cons_of_mem x hb) hab

/-- Cutting at `r` gives the invariant at the start: the children of `r` on the stack, the rest
of the active units of the tenant in the pool. -/
theorem walking_start :
    s.Walking t r (splitChildren r (s.activeBut t r)).2 (splitChildren r (s.activeBut t r)).1 := by
  -- a child of `r` hangs below nothing: its climb stops at `r`
  have root_kid : ∀ e ∈ s.activeBut t r, e.parent = some r → ∀ b ∈ s.activeBut t r,
      ¬ s.HangsBelow t r e.id b.id := by
    intro e he hpar b hb heb
    have link : s.ParentLink t e.id r :=
      ⟨e, active?_of_mem_activeOf hnd (mem_activeBut.1 he).1, hpar⟩
    rcases heb.of_link link with hid | ⟨hrr, -⟩
    · exact (mem_activeBut.1 hb).2 hid
    · exact hrr rfl
  refine ⟨List.filter_sublist, fun y hy => (mem_splitChildren_fst.1 hy).1,
    (nodup_activeBut hnd).sublist List.filter_sublist, ?_, ?_, ?_⟩
  · intro y hy hyp
    exact (mem_splitChildren_snd.1 hyp).2 (mem_splitChildren_fst.1 hy).2
  · intro y hy e he hey
    refine mem_splitChildren_snd.2 ⟨he, fun hpar => ?_⟩
    exact root_kid e he hpar y (mem_splitChildren_fst.1 hy).1 hey
  · intro a ha b hb
    exact root_kid a (mem_splitChildren_fst.1 ha).1 (mem_splitChildren_fst.1 ha).2 b
      (mem_splitChildren_fst.1 hb).1

/-- **The walk lists trees in pre-order.** From a pool and stack the walk keeps its invariant
for, it lists the trees hanging from the units of the stack, in pre-order. -/
theorem hanging_below (pool stack : List Entity) (hw : s.Walking t r pool stack) :
    s.Hanging t r stack (Walk.below pool stack) := by
  induction pool, stack using Walk.below.induct with
  | case1 pool =>
    rw [Walk.below.eq_1]
    exact .nil
  | case2 pool x rest _ ih =>
    rw [Walk.below.eq_2]
    -- the walk goes on with the children of `x` in front of the rest of the stack
    obtain ⟨below, others, hsplit, hb, ho⟩ := (ih (hw.step hnd)).append_inv
    rw [hsplit]
    rw [hw.children_eq hnd] at hb
    exact .cons hb ho

end Distinct

/-! ## §4 Descendants -/

/-- The walk from `r` starts with the children of `r` on its stack. -/
theorem splitChildren_activeBut (s : Store) (t r : Ident) :
    (splitChildren r (s.activeBut t r)).1 = (s.childrenOf r t).filter (fun e => e.id != r) := by
  simp only [splitChildren, activeBut, childrenOf, List.filter_filter]
  exact List.filter_congr fun e _ => Bool.and_comm _ _

/-- A unit that hangs below another has a parent link. -/
theorem HangsBelow.link {x a : Ident} (h : s.HangsBelow t r x a) : ∃ p, s.ParentLink t x p := by
  cases h with
  | parent link => exact ⟨_, link⟩
  | climb link _ _ => exact ⟨_, link⟩

/-- Every active unit other than `r` that hangs below `r` is a descendant of `r`. -/
theorem mem_descendants_of_hangsBelow {x a : Ident} (h : s.HangsBelow t r x a) (ha : a = r)
    {e : Entity} (he : s.active? x t = some e) (hne : e.id ≠ r) : e ∈ s.descendants r t := by
  induction h generalizing e with
  | parent link =>
    subst ha
    obtain ⟨e', he', hpar⟩ := link
    rw [he, Option.some.injEq] at he'
    subst he'
    obtain ⟨hm, -, hten, hact⟩ := mem_of_active? he
    exact mem_descendants_of_parent hm (by simp [Entity.activeIn, hten, hact]) hne hpar (.inl rfl)
  | @climb x p a link hp rest ih =>
    subst ha
    obtain ⟨e', he', hpar⟩ := link
    rw [he, Option.some.injEq] at he'
    subst he'
    obtain ⟨hm, -, hten, hact⟩ := mem_of_active? he
    -- the parent hangs below `r` too, so it is a descendant already
    obtain ⟨q, P, hP, -⟩ := rest.link
    have hPid : P.id = p := (mem_of_active? hP).2.1
    exact mem_descendants_of_parent hm (by simp [Entity.activeIn, hten, hact]) hne hpar
      (.inr ⟨P, ih rfl hP (hPid ▸ hp), hPid⟩)

/-- The walk yields no more units than the tenant has active. -/
theorem length_descendants_le (s : Store) (r t : Ident) :
    (s.descendants r t).length ≤ (s.activeOf t).length :=
  Nat.le_trans (descendants_subperm s r t).length_le (List.length_filter_le _ _)

section Distinct

variable (hnd : (s.entities.map Entity.id).Nodup)
include hnd

/-- The descendants of `r` are the trees hanging from its children, cut at `r`, in
pre-order. -/
theorem hanging_descendants :
    s.Hanging t r ((s.childrenOf r t).filter (fun e => e.id != r)) (s.descendants r t) := by
  rw [← splitChildren_activeBut]
  exact hanging_below hnd _ _ (walking_start hnd)

/-- The descendants of `r` are exactly the active units of the tenant, other than `r`, whose
climb reaches `r`. -/
theorem mem_descendants_iff {e : Entity} :
    e ∈ s.descendants r t ↔ e ∈ s.activeOf t ∧ e.id ≠ r ∧ s.Descends t e.id r := by
  constructor
  · intro he
    obtain ⟨hm, ht, hne⟩ := mem_descendants he
    refine ⟨mem_activeOf.2 ⟨hm, ht⟩, hne, ?_⟩
    -- a child of `r`, or a unit hanging below one
    rcases (hanging_descendants hnd).mem hnd he with hk | ⟨-, y, hy, hey⟩
    · exact .parent (parentLink_of_mem_childrenOf hnd (List.mem_filter.1 hk).1)
    · obtain ⟨hyc, hyr⟩ := List.mem_filter.1 hy
      exact (hey.trans (by simpa using hyr)
        (.parent (parentLink_of_mem_childrenOf hnd hyc))).descends
  · rintro ⟨he, hne, hd⟩
    exact mem_descendants_of_hangsBelow hd.hangsBelow rfl (active?_of_mem_activeOf hnd he) hne

/-- The walk yields no identifier twice. -/
theorem nodup_descendants_ids : ((s.descendants r t).map Entity.id).Nodup := by
  obtain ⟨l, hperm, hsub⟩ := descendants_subperm s r t
  have hids : (l.map Entity.id).Nodup :=
    hnd.sublist ((hsub.trans (List.filter_sublist.trans List.filter_sublist)).map _)
  exact (hperm.map Entity.id).nodup_iff.1 hids

end Distinct

/-- **The descendant walk, on any store.** In a store whose identifiers are distinct, whatever
its parent links, the walk from `r` in tenant `t` yields no identifier twice and no more units
than the tenant has active, never `r`, and exactly the active units of the tenant whose climb
reaches `r`. It lists them as the trees hanging from the children of `r`, cut at `r`, in
pre-order: each unit after its parent, each subtree together, children in insertion order. -/
theorem descendants_in_preorder (s : Store) (hnd : (s.entities.map Entity.id).Nodup)
    (r t : Ident) :
    ((s.descendants r t).map Entity.id).Nodup ∧
      (s.descendants r t).length ≤ (s.activeOf t).length ∧
      (∀ e, e ∈ s.descendants r t ↔
        e ∈ s.activeOf t ∧ e.id ≠ r ∧ s.Descends t e.id r) ∧
      s.Hanging t r ((s.childrenOf r t).filter (fun e => e.id != r)) (s.descendants r t) :=
  ⟨nodup_descendants_ids hnd, length_descendants_le s r t, fun _ => mem_descendants_iff hnd,
    hanging_descendants hnd⟩

/-- Units `A` and `B` of one tenant whose parent links name each other. -/
def loopStore : Store :=
  ⟨[{ id := Ident.serial 1, tenant := Ident.ofNat 1, name := "A", kind := .generic,
      parent := some (Ident.serial 2), path := "A", level := 0, metadata := .record [],
      state := .active, version := 2, createdBy := none, updatedBy := none },
    { id := Ident.serial 2, tenant := Ident.ofNat 1, name := "B", kind := .generic,
      parent := some (Ident.serial 1), path := "A > B", level := 1, metadata := .record [],
      state := .active, version := 1, createdBy := none, updatedBy := none }], 2⟩

/-- The walk from `A` through the loop: the loop is cut at `A`. -/
theorem loop_descendants_in_preorder :
    (loopStore.entities.map Entity.id).Nodup ∧
      ((loopStore.descendants (Ident.serial 1) (Ident.ofNat 1)).map Entity.id).Nodup ∧
      (loopStore.descendants (Ident.serial 1) (Ident.ofNat 1)).length ≤
        (loopStore.activeOf (Ident.ofNat 1)).length ∧
      (∀ e, e ∈ loopStore.descendants (Ident.serial 1) (Ident.ofNat 1) ↔
        e ∈ loopStore.activeOf (Ident.ofNat 1) ∧ e.id ≠ Ident.serial 1 ∧
          loopStore.Descends (Ident.ofNat 1) e.id (Ident.serial 1)) ∧
      loopStore.Hanging (Ident.ofNat 1) (Ident.serial 1)
        ((loopStore.childrenOf (Ident.serial 1) (Ident.ofNat 1)).filter
          (fun e => e.id != Ident.serial 1))
        (loopStore.descendants (Ident.serial 1) (Ident.ofNat 1)) :=
  have hnd : (loopStore.entities.map Entity.id).Nodup := by decide
  ⟨hnd, descendants_in_preorder loopStore hnd (Ident.serial 1) (Ident.ofNat 1)⟩

/-- The walk from `A` yields `B` alone. -/
example : (loopStore.descendants (Ident.serial 1) (Ident.ofNat 1)).map Entity.id =
    [Ident.serial 2] := by
  decide +kernel

end Store

end TenantForest

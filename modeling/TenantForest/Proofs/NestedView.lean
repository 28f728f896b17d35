import TenantForest.Proofs.Nesting
import TenantForest.Proofs.IntegrityReport
import TenantForest.Proofs.Listing

/-!
# The nested view of a tenant

`Forest.outline` nests the hierarchy order of a tenant's units with a stack of open units
(`Outline.build`). On every store, whatever its parent links, two things hold of it, and both
come from the nesting alone: read back in pre-order it is the hierarchy order
(`Outline.flatten_build_nil`), and a unit is nested only in the unit its parent link names
(`Outline.nests_build`).

On a reachable forest the view is the tenant's forest itself: its top level is the active roots
in sibling order, and in every unit are nested its active children down to the requested level,
in sibling order. The walk behind the hierarchy order grows that forest (`descend_grows`). It
keeps the invariant `Walking` of the descendant walk, cut at the identifier the store issues
next, which cuts nothing; sorting the children it pushes does not disturb the invariant, which
only asks what the stack holds. In a shaped store every unit climbs to a root, so the walk leaves
nothing over and no unit is stranded (`Shaped.hierarchy_grows`). Cutting the forest at a level
keeps a forest, since a child sits one level below its parent (`Outline.Grows.filter`), and
nesting the pre-order of a forest gives the forest back (`Outline.build_flatten`).

Main statement: `outline_nests_hierarchy`.

  §1 The walk grows a forest.
  §2 Cutting at the next identifier.
  §3 Shaped stores.
  §4 Cutting at a level.
  §5 The nested view.
-/

namespace TenantForest

open TenantForest.Order

namespace Store

variable {s : Store} {t r : Ident}

/-! ## §1 The walk grows a forest -/

/-- What the hierarchy walk nests in `x`, cut at `r`: the active children of `x` other than `r`,
in sibling order. -/
def walkKids (s : Store) (t r : Ident) (x : Entity) : List Entity :=
  sortWith bySibling ((s.childrenOf x.id t).filter fun e => e.id != r)

/-- The walk's invariant asks what the stack holds, not in which order. -/
theorem Walking.perm {pool stack stack' : List Entity} (hw : s.Walking t r pool stack)
    (hp : stack'.Perm stack) : s.Walking t r pool stack' :=
  ⟨hw.pool_sublist, fun y hy => hw.stack_mem y (hp.subset hy), hp.nodup_iff.2 hw.nodup,
    fun y hy => hw.stack_not_pool y (hp.subset hy), fun y hy => hw.closed y (hp.subset hy),
    fun a ha b hb => hw.apart a (hp.subset ha) b (hp.subset hb)⟩

/-- A climb to `a` that does not start at a child of `a` passes one. -/
theorem HangsBelow.through_child {x a : Ident} (h : s.HangsBelow t r x a) :
    s.ParentLink t x a ∨ ∃ c, c ≠ r ∧ s.ParentLink t c a ∧ s.HangsBelow t r x c := by
  induction h with
  | parent link => exact .inl link
  | climb link hne _ ih =>
    rcases ih with link' | ⟨c, hc, link', hpc⟩
    · exact .inr ⟨_, hne, link', .parent link⟩
    · exact .inr ⟨c, hc, link', .climb link hne hpc⟩

/-- A climb to an active unit starts with a link to an active unit. -/
theorem HangsBelow.parent_active {x a : Ident} (h : s.HangsBelow t r x a) {ea : Entity}
    (ha : s.active? a t = some ea) : ∃ p ep, s.ParentLink t x p ∧ s.active? p t = some ep := by
  cases h with
  | parent link => exact ⟨a, ea, link, ha⟩
  | climb link _ rest =>
    obtain ⟨q, ep, hep, -⟩ := rest.link
    exact ⟨_, ep, link, hep⟩

section Distinct

variable (hnd : (s.entities.map Entity.id).Nodup)
include hnd

/-- An active unit with a parent link names that parent. -/
theorem parent_of_link {e : Entity} (he : e ∈ s.activeOf t) {p : Ident}
    (link : s.ParentLink t e.id p) : e.parent = some p := by
  obtain ⟨e', he', hpar⟩ := link
  rw [active?_of_mem_activeOf hnd he, Option.some.injEq] at he'
  rw [he', hpar]

variable {pool rest : List Entity} {x : Entity}

/-- The hierarchy walk keeps the invariant: its step is the descendant walk's, with the children
in sibling order. -/
theorem Walking.sorted_step (hw : s.Walking t r pool (x :: rest)) :
    s.Walking t r (splitChildren x.id pool).2
      (sortWith bySibling (splitChildren x.id pool).1 ++ rest) :=
  (hw.step hnd).perm ((sortWith_perm _).append_right rest)

/-- Every unit of the pool that hung below a unit of the stack still does after a step: one
that hung below the top without being its child hangs below one of its children. -/
theorem Walking.reach_step (hw : s.Walking t r pool (x :: rest))
    (hreach : ∀ p ∈ pool, ∃ y ∈ x :: rest, s.HangsBelow t r p.id y.id) :
    ∀ p ∈ (splitChildren x.id pool).2,
      ∃ y ∈ sortWith bySibling (splitChildren x.id pool).1 ++ rest,
        s.HangsBelow t r p.id y.id := by
  intro p hp
  obtain ⟨hpool, hnot⟩ := mem_splitChildren_snd.1 hp
  obtain ⟨y, hy, hpy⟩ := hreach p hpool
  rcases List.mem_cons.1 hy with rfl | hy
  · rcases hpy.through_child with link | ⟨c, hcr, ⟨ec, hec, hcpar⟩, hpc⟩
    · -- `p` would be a child of the top, which the step took out of the pool
      exact absurd (parent_of_link hnd
        (mem_activeBut.1 (hw.pool_sublist.subset hpool)).1 link) hnot
    · -- the child of the top that the climb passes is in the pool, so the step pushes it
      obtain ⟨-, rfl, -⟩ := mem_of_active? hec
      have hca : ec ∈ s.activeBut t r := mem_activeBut.2 ⟨mem_activeOf_of_active? hec, hcr⟩
      have hcpool : ec ∈ pool := hw.closed y List.mem_cons_self ec hca (.parent ⟨ec, hec, hcpar⟩)
      exact ⟨ec, List.mem_append_left _ ((sortWith_perm _).symm.subset
        (mem_splitChildren_fst.2 ⟨hcpool, hcpar⟩)), hpc⟩
  · exact ⟨y, List.mem_append_right _ hy, hpy⟩

/-- **The walk grows a forest.** From a state the walk keeps its invariant for, the units it
visits are the pre-order of the forest grown from the stack, each unit with its active children
other than `r`, in sibling order. -/
theorem descend_grows (pool stack : List Entity) (hw : s.Walking t r pool stack) :
    ∃ os, Outline.Grows (s.walkKids t r) stack os ∧
      Outline.flatten os = (descend pool stack).1 := by
  induction pool, stack using descend.induct with
  | case1 pool => exact ⟨[], .nil, by rw [descend.eq_1, Outline.flatten_nil]⟩
  | case2 pool x rest parts seen left h ih =>
    obtain ⟨os, hg, hflat⟩ := ih (hw.sorted_step hnd)
    rw [h] at hflat
    -- the forest of the new stack is the children's subtrees, then the rest's
    obtain ⟨cs, os', rfl, hcs, hos⟩ := hg.append_inv
    refine ⟨.node x cs :: os', .cons ?_ hos, ?_⟩
    · rwa [walkKids, ← hw.children_eq hnd]
    · rw [descend.eq_2, h, Outline.flatten_cons, List.cons_append, ← Outline.flatten_append,
        hflat]

/-- **The walk leaves nothing over** when every unit of the pool hangs below a unit of the
stack. -/
theorem descend_snd_eq_nil (pool stack : List Entity) (hw : s.Walking t r pool stack)
    (hreach : ∀ p ∈ pool, ∃ y ∈ stack, s.HangsBelow t r p.id y.id) :
    (descend pool stack).2 = [] := by
  induction pool, stack using descend.induct with
  | case1 pool =>
    rw [descend.eq_1, List.eq_nil_iff_forall_not_mem]
    intro p hp
    obtain ⟨y, hy, -⟩ := hreach p hp
    exact List.not_mem_nil hy
  | case2 pool x rest parts seen left h ih =>
    have hleft := ih (hw.sorted_step hnd) (hw.reach_step hnd hreach)
    rw [h] at hleft
    rw [descend.eq_2, h]
    exact hleft

end Distinct

/-! ## §2 Cutting at the next identifier -/

section Keyed

variable (hk : s.Keyed)
include hk

/-- No active unit carries the identifier the store issues next. -/
theorem Keyed.ne_next_of_active {y : Ident} {e : Entity} (h : s.active? y t = some e) :
    y ≠ Ident.serial (s.issued + 1) := by
  obtain ⟨hm, rfl, -⟩ := mem_of_active? h
  intro heq
  have hlt := hk.below e hm
  rw [heq] at hlt
  exact Nat.lt_irrefl _ hlt

/-- Cut at the identifier issued next, the active units of a tenant lose none. -/
theorem Keyed.activeBut_next : s.activeBut t (Ident.serial (s.issued + 1)) = s.activeOf t :=
  List.filter_eq_self.2 fun e he => by
    simpa using hk.ne_next_of_active (active?_of_mem_activeOf hk.nodup he)

/-- Cut at the identifier issued next, the children of a unit lose none. -/
theorem Keyed.walkKids_next :
    s.walkKids t (Ident.serial (s.issued + 1)) = fun x => sortWith bySibling (s.childrenOf x.id t) := by
  funext x
  have hall : (s.childrenOf x.id t).filter (fun e => e.id != Ident.serial (s.issued + 1)) =
      s.childrenOf x.id t :=
    List.filter_eq_self.2 fun e he => by
      simpa using hk.ne_next_of_active (active?_of_mem_activeOf hk.nodup (List.mem_filter.1 he).1)
  rw [walkKids, hall]

/-- Cut at the identifier issued next, every climb hangs below where it arrives. -/
theorem Keyed.hangsBelow_next {x a : Ident} (h : s.Descends t x a) :
    s.HangsBelow t (Ident.serial (s.issued + 1)) x a := by
  induction h with
  | parent link => exact .parent link
  | climb link hd ih =>
    obtain ⟨e, he⟩ := hd.active
    exact .climb link (hk.ne_next_of_active he) ih

/-- The hierarchy walk starts in the invariant, cut at the identifier issued next: the roots in
sibling order on the stack, and in the pool the other units whose parent is one of the units. -/
theorem Keyed.walking_roots :
    s.Walking t (Ident.serial (s.issued + 1))
      ((s.activeOf t).filter fun e => !e.isRoot && linked ((s.activeOf t).map Entity.id) e)
      (sortWith bySibling ((s.activeOf t).filter Entity.isRoot)) := by
  have hroots : (sortWith bySibling ((s.activeOf t).filter Entity.isRoot)).Perm
      ((s.activeOf t).filter Entity.isRoot) := sortWith_perm _
  -- a root hangs below nothing: it has no parent link
  have root_free : ∀ a ∈ sortWith bySibling ((s.activeOf t).filter Entity.isRoot),
      ∀ p, ¬ s.ParentLink t a.id p := by
    intro a ha p link
    obtain ⟨haa, hroot⟩ := List.mem_filter.1 (hroots.subset ha)
    simp [Entity.isRoot, parent_of_link hk.nodup haa link] at hroot
  refine ⟨?_, fun y hy => ?_, hroots.nodup_iff.2 ((List.Nodup.of_map Entity.id
    (hk.nodup_activeOf t)).sublist List.filter_sublist), fun y hy hyp => ?_,
    fun y hy e he hey => ?_, fun a ha b _ hab => ?_⟩
  · rw [hk.activeBut_next]
    exact List.filter_sublist
  · rw [hk.activeBut_next]
    exact (List.mem_filter.1 (hroots.subset hy)).1
  · have hroot := (List.mem_filter.1 (hroots.subset hy)).2
    simp [hroot] at hyp
  · -- a unit below a root is no root, and its parent is an active unit of the tenant
    rw [hk.activeBut_next] at he
    have hya := (List.mem_filter.1 (hroots.subset hy)).1
    obtain ⟨p, ep, link, hep⟩ := hey.parent_active (active?_of_mem_activeOf hk.nodup hya)
    have hpar := parent_of_link hk.nodup he link
    have hp : p ∈ (s.activeOf t).map Entity.id :=
      List.mem_map.2 ⟨ep, mem_activeOf_of_active? hep, (mem_of_active? hep).2.1⟩
    refine List.mem_filter.2 ⟨he, ?_⟩
    simp [Entity.isRoot, linked, hpar, hp]
  · obtain ⟨p, link⟩ := hab.link
    exact root_free a ha p link

end Keyed

/-! ## §3 Shaped stores -/

/-- A root path ends at a root. -/
theorem RootPath.exists_root {x : Ident} {c : List Entity} (h : s.RootPath t x c) :
    ∃ ρ ∈ c, ρ.parent = none := by
  induction h with
  | @root x e _ hroot => exact ⟨e, List.mem_singleton_self e, hroot⟩
  | climb _ _ _ ih =>
    obtain ⟨ρ, hρ, hroot⟩ := ih
    exact ⟨ρ, List.mem_cons_of_mem _ hρ, hroot⟩

variable {st : Settings}

/-- In a shaped store the parent link of an active unit names an active unit of its tenant. -/
theorem Shaped.linked_eq_true (hs : s.Shaped st) {e : Entity} (he : e ∈ s.activeOf t) :
    linked ((s.activeOf t).map Entity.id) e = true := by
  obtain ⟨hm, ht⟩ := mem_activeOf.1 he
  simp only [Entity.activeIn, Bool.and_eq_true, beq_iff_eq] at ht
  unfold linked
  split
  · rename_i p hp
    obtain ⟨q, hq, -, -⟩ := (hs.placed e hm ht.2).child hp
    rw [ht.1] at hq
    exact List.contains_iff_mem.2
      (List.mem_map.2 ⟨q, mem_activeOf_of_active? hq, (mem_of_active? hq).2.1⟩)
  · rfl

/-- In a shaped store every unit of the pool hangs below a root: its root path ends at one. -/
theorem Shaped.reach_roots (hs : s.Shaped st) :
    ∀ p ∈ (s.activeOf t).filter (fun e => !e.isRoot && linked ((s.activeOf t).map Entity.id) e),
      ∃ y ∈ sortWith bySibling ((s.activeOf t).filter Entity.isRoot),
        s.HangsBelow t (Ident.serial (s.issued + 1)) p.id y.id := by
  intro p hp
  obtain ⟨hpa, hnr⟩ := List.mem_filter.1 hp
  obtain ⟨c, hc, -⟩ := hs.rootPath_of_active hpa
  obtain ⟨ρ, hρ, hroot⟩ := hc.exists_root
  have hρa := hc.active ρ hρ
  refine ⟨ρ, (sortWith_perm _).symm.subset (List.mem_filter.2
    ⟨mem_activeOf_of_active? hρa, by simp [Entity.isRoot, hroot]⟩), ?_⟩
  rcases hc.descends_of_mem hρ with hid | hd
  · -- the root would be `p` itself, which is no root
    rw [hid, active?_of_mem_activeOf hs.keyed.nodup hpa, Option.some.injEq] at hρa
    subst hρa
    simp [Entity.isRoot, hroot] at hnr
  · exact hs.keyed.hangsBelow_next hd

/-- **In a shaped store the hierarchy order is the pre-order of the tenant's forest**: the forest
grown from the active roots in sibling order, each unit with its active children in sibling
order. -/
theorem Shaped.hierarchy_grows (hs : s.Shaped st) (sep : String) (t : Ident) :
    ∃ os, Outline.Grows (fun x => sortWith bySibling (s.childrenOf x.id t))
        (sortWith bySibling ((s.activeOf t).filter Entity.isRoot)) os ∧
      Outline.flatten os = s.hierarchy sep t := by
  have hw := hs.keyed.walking_roots (t := t)
  obtain ⟨os, hg, hflat⟩ := descend_grows hs.keyed.nodup _ _ hw
  rw [hs.keyed.walkKids_next] at hg
  refine ⟨os, hg, ?_⟩
  rw [hflat, Store.hierarchy, Order.hierarchy_eq_reached (fun e he => hs.linked_eq_true he)
    (descend_snd_eq_nil hs.keyed.nodup _ _ hw hs.reach_roots)]

/-- In a shaped store an active child sits one level below its parent. -/
theorem Shaped.level_of_child (hs : s.Shaped st) {x c : Entity} (hx : x ∈ s.activeOf t)
    (hc : c ∈ s.childrenOf x.id t) : c.level = x.level + 1 := by
  obtain ⟨ec, ex, hec, hex, hlevel⟩ :=
    hs.level_of_link (parentLink_of_mem_childrenOf hs.keyed.nodup hc)
  rw [active?_of_mem_activeOf hs.keyed.nodup (List.mem_filter.1 hc).1, Option.some.injEq] at hec
  rw [active?_of_mem_activeOf hs.keyed.nodup hx, Option.some.injEq] at hex
  rw [hec, hex]
  exact hlevel

/-- In a shaped store an active root sits at level 0. -/
theorem Shaped.level_of_root (hs : s.Shaped st) {e : Entity} (he : e ∈ s.activeOf t)
    (hroot : e.isRoot = true) : e.level = 0 := by
  obtain ⟨hm, ht⟩ := mem_activeOf.1 he
  simp only [Entity.activeIn, Bool.and_eq_true, beq_iff_eq] at ht
  exact ((hs.placed e hm ht.2).root (by simpa [Entity.isRoot] using hroot)).2

end Store

/-! ## §4 Cutting at a level -/

namespace Order

/-- Siblings equal in sibling order share their identifier. -/
theorem id_eq_of_bySibling {a b : Entity} (h : bySibling a b = .eq) : a.id = b.id := by
  rw [bySibling_eq, compareLex_eq_eq, compareOn, Nat.compare_eq_eq] at h
  obtain ⟨_, hbits⟩ := h
  cases ha : a.id
  cases hb : b.id
  simp_all

/-- Sorting commutes with keeping some of the units, when only equal units compare equal. -/
theorem sortWith_filter {cmp : Entity → Entity → Ordering} [Std.TransCmp cmp] (p : Entity → Bool)
    {xs : List Entity} (heq : ∀ a ∈ xs, ∀ b ∈ xs, cmp a b = .eq → a = b) :
    sortWith cmp (xs.filter p) = (sortWith cmp xs).filter p :=
  sortWith_eq_of_pairwise ((sortWith_perm xs).filter p)
    ((sortWith_pairwise xs).sublist List.filter_sublist)
    fun a ha b hb => heq a (List.mem_of_mem_filter ha) b (List.mem_of_mem_filter hb)

end Order

namespace Store

variable {s : Store} {t : Ident}

/-- In a keyed store, keeping some of the children of a unit commutes with sorting them. -/
theorem Keyed.filter_sortWith_children (hk : s.Keyed) (p : Entity → Bool) (x : Entity) :
    (sortWith bySibling (s.childrenOf x.id t)).filter p =
      sortWith bySibling ((s.childrenOf x.id t).filter p) := by
  refine (sortWith_filter p fun a ha b hb h => ?_).symm
  -- siblings equal in sibling order share an identifier, so they are one unit
  exact List.inj_on_of_nodup_map hk.nodup (mem_activeOf.1 (List.mem_filter.1 ha).1).1
    (mem_activeOf.1 (List.mem_filter.1 hb).1).1 (id_eq_of_bySibling h)

variable {st : Settings}

/-- **In a shaped store the hierarchy cut at a level is the pre-order of the tenant's forest cut
there**, for a level that is not negative, or none: the forest grown from the active roots in
sibling order, each unit with its active children at or above the level, in sibling order. -/
theorem Shaped.hierarchy_cut_grows (hs : s.Shaped st) (sep : String) (t : Ident) {d : Option Int}
    (hd : ∀ m, d = some m → 0 ≤ m) :
    ∃ os, Outline.Grows (fun x => sortWith bySibling
          ((s.childrenOf x.id t).filter fun e => d.all fun m => decide (e.level ≤ m)))
        (sortWith bySibling ((s.activeOf t).filter Entity.isRoot)) os ∧
      Outline.flatten os = (s.hierarchy sep t).filter fun e => d.all fun m => decide (e.level ≤ m) := by
  set keep : Entity → Bool := fun e => d.all fun m => decide (e.level ≤ m) with hkeep
  obtain ⟨os₀, hg, hflat⟩ := hs.hierarchy_grows sep t
  -- a child is kept only if its parent is: it sits one level below
  have hclosed : ∀ x ∈ Outline.flatten os₀, ∀ c ∈ sortWith bySibling (s.childrenOf x.id t),
      keep c = true → keep x = true := by
    intro x hx c hc hkc
    have hx' : x ∈ s.activeOf t := (hierarchy_perm _ _).subset (hflat ▸ hx)
    have hlevel := hs.level_of_child hx' ((sortWith_perm _).subset hc)
    cases d with
    | none => rfl
    | some m =>
      simp only [hkeep, Option.all_some, decide_eq_true_eq] at hkc ⊢
      omega
  obtain ⟨os, hgrow, hflat'⟩ := hg.filter keep hclosed
  -- every root is kept, at level 0
  have hroots : (sortWith bySibling ((s.activeOf t).filter Entity.isRoot)).filter keep =
      sortWith bySibling ((s.activeOf t).filter Entity.isRoot) := by
    refine List.filter_eq_self.2 fun e he => ?_
    obtain ⟨hea, hroot⟩ := List.mem_filter.1 ((sortWith_perm _).subset he)
    have hzero := hs.level_of_root hea hroot
    cases d with
    | none => rfl
    | some m => simpa [hkeep, hzero] using hd m rfl
  -- the kept kids of a unit are its kept children, sorted
  have hkids : (fun x : Entity => (sortWith bySibling (s.childrenOf x.id t)).filter keep) =
      fun x : Entity => sortWith bySibling ((s.childrenOf x.id t).filter keep) :=
    funext (hs.keyed.filter_sortWith_children keep)
  rw [hroots, hkids] at hgrow
  refine ⟨os, hgrow, ?_⟩
  rw [hflat', hflat]

end Store

/-! ## §5 The nested view -/

namespace Forest

variable {f : Forest} {t : Ident} {d : Option Int}

/-- Read back in pre-order, the nested view is the hierarchy order. -/
theorem outline_flatten (f : Forest) (t : Ident) (d : Option Int) :
    (f.outline t d).map Outline.flatten = f.hierarchy t d := by
  rw [outline]
  cases f.hierarchy t d with
  | error e => rfl
  | ok es => exact congrArg Except.ok (Outline.flatten_build_nil es)

/-- In the nested view every unit nested in another names it as its parent. -/
theorem outline_nests {os : List Outline} (h : f.outline t d = .ok os) : Outline.Nests os := by
  rw [outline] at h
  cases hh : f.hierarchy t d with
  | error e =>
    rw [hh] at h
    cases h
  | ok es =>
    rw [hh] at h
    obtain rfl : Outline.build [] [] es = os := Except.ok.inj h
    exact Outline.nests_build es

/-- Down to a level that is not negative, or to none, the hierarchy keeps the units at or above
it. -/
theorem hierarchy_eq_filter (hd : ∀ m, d = some m → 0 ≤ m) :
    f.hierarchy t d = .ok ((f.store.hierarchy f.settings.separator t).filter
      fun e => d.all fun m => decide (e.level ≤ m)) := by
  cases d with
  | none => simp [hierarchy]
  | some m => simp [hierarchy, Int.not_lt.2 (hd m rfl)]

variable {st : Settings}

/-- **The nested view of a shaped store is the tenant's forest**, down to a level that is not
negative, or to none: its top level is the active roots in sibling order, and in every unit are
nested its active children at or above the level, in sibling order. -/
theorem Shaped.outline_grows (hs : f.store.Shaped st) (hd : ∀ m, d = some m → 0 ≤ m) :
    ∃ os, f.outline t d = .ok os ∧
      os.map Outline.unit = sortWith bySibling ((f.store.activeOf t).filter Entity.isRoot) ∧
      ∀ u cs, Outline.Within (.node u cs) os →
        cs.map Outline.unit = sortWith bySibling
          ((f.store.childrenOf u.id t).filter fun e => d.all fun m => decide (e.level ≤ m)) := by
  obtain ⟨os, hgrow, hflat⟩ := hs.hierarchy_cut_grows f.settings.separator t hd
  -- nesting the pre-order of the kept forest gives it back
  have hnd : ((Outline.flatten os).map Entity.id).Nodup := by
    rw [hflat]
    exact (((hierarchy_perm _ _).map Entity.id).nodup_iff.2
      (hs.keyed.nodup_activeOf t)).sublist (List.filter_sublist.map _)
  have hbuild : Outline.build [] [] (Outline.flatten os) = os := by
    rw [Outline.build_flatten (fun (x : Entity) c hc => ?_) hgrow (fun (x : Entity) hx => ?_) hnd]
    · simp [Outline.closeAll]
    · have hc' := (List.mem_filter.1 ((sortWith_perm _).subset hc)).1
      simpa [Store.childrenOf, Store.isChildOf] using (List.mem_filter.1 hc').2
    · simpa [Entity.isRoot] using (List.mem_filter.1 ((sortWith_perm _).subset hx)).2
  refine ⟨os, ?_, hgrow.map_unit, fun u cs hw => (hgrow.within hw).map_unit⟩
  rw [outline, hierarchy_eq_filter hd, ← hflat]
  exact congrArg Except.ok hbuild

/-- **The nested view nests the hierarchy.** For every tenant and level bound, the nested view
read back in pre-order is the hierarchy order, and every unit nested in another names it as its
parent, whatever the parent links of the store. In a reachable forest, down to a level that is
not negative, or to none, the view is the tenant's forest: its top level is the active roots in
sibling order, and in every unit are nested exactly its active children at or above the level,
in sibling order. -/
theorem outline_nests_hierarchy (f : Forest) (t : Ident) (d : Option Int) :
    (f.outline t d).map Outline.flatten = f.hierarchy t d ∧
    (∀ os, f.outline t d = .ok os → ∀ u cs, Outline.Within (.node u cs) os →
      ∀ c ∈ cs, c.unit.parent = some u.id) ∧
    ∀ st, Reachable st f → (∀ m, d = some m → 0 ≤ m) →
      ∃ os, f.outline t d = .ok os ∧
        os.map Outline.unit = sortWith bySibling ((f.store.activeOf t).filter Entity.isRoot) ∧
        ∀ u cs, Outline.Within (.node u cs) os →
          cs.map Outline.unit = sortWith bySibling
            ((f.store.childrenOf u.id t).filter fun e => d.all fun m => decide (e.level ≤ m)) :=
  ⟨outline_flatten f t d, fun _ h => outline_nests h,
    fun _ hf hd => Shaped.outline_grows hf.shaped hd⟩

/-- The nested view of `Acme`'s tenant down to level 1: `Acme` on top, `Finance` and `Sales`
nested in it, and `East` cut away. -/
theorem acme_outline_nests_hierarchy :
    Reachable {} acmeTreeForest ∧ (∀ m, some (1 : Int) = some m → 0 ≤ m) ∧
    (acmeTreeForest.outline (Ident.ofNat 7) (some 1)).map Outline.flatten =
      acmeTreeForest.hierarchy (Ident.ofNat 7) (some 1) ∧
    (∀ os, acmeTreeForest.outline (Ident.ofNat 7) (some 1) = .ok os →
      ∀ u cs, Outline.Within (.node u cs) os → ∀ c ∈ cs, c.unit.parent = some u.id) ∧
    ∀ st, Reachable st acmeTreeForest → (∀ m, some (1 : Int) = some m → 0 ≤ m) →
      ∃ os, acmeTreeForest.outline (Ident.ofNat 7) (some 1) = .ok os ∧
        os.map Outline.unit =
          sortWith bySibling ((acmeTreeForest.store.activeOf (Ident.ofNat 7)).filter Entity.isRoot) ∧
        ∀ u cs, Outline.Within (.node u cs) os →
          cs.map Outline.unit = sortWith bySibling
            ((acmeTreeForest.store.childrenOf u.id (Ident.ofNat 7)).filter
              fun e => (some (1 : Int)).all fun m => decide (e.level ≤ m)) := by
  have hreach : Reachable {} acmeTreeForest := .after _ (.after _ (.after _ (.after _ .empty)))
  have hd : ∀ m, some (1 : Int) = some m → 0 ≤ m := fun m h => by
    cases h
    decide
  exact ⟨hreach, hd, outline_nests_hierarchy acmeTreeForest (Ident.ofNat 7) (some 1)⟩

end Forest

end TenantForest

import TenantForest.Proofs.NestedView

/-!
# The hierarchy order on any units

`Order.hierarchy` is read here against relations that mention no stack and no pool, for every
list of units whose identifiers are distinct, however corrupt their parent links: units that are
their own parent, parent links that run in a circle, parent links to units outside the list.

* `Order.Rooted nodes e`: climbing parent links from `e` through the units of `nodes` arrives at
  a root. A unit on a circle, below one, or below a unit whose parent is not in the list never
  does.
* `Order.Below nodes e a`: climbing parent links from `e` through the units of `nodes` passes `a`.
* The rooted units form the forest grown (`Outline.Grows`) from the roots in sibling order, each
  unit with its children among the units in sibling order (`sortedChildren`).

Main statement: `hierarchy_rooted_then_stranded`. The hierarchy order rearranges the units and
comes in two parts. First the rooted units, as the pre-order of that forest: each unit after its
parent, and each unit followed at once by exactly the units below it. Then every other unit, in
strictly increasing path order.

The walk from the roots keeps one invariant, `Frontier`, the list form of the descendant walk's:
its pool is part of the units, in their order, and apart from its stack; every unit below a unit
of the stack is still in the pool; and no unit of the stack is below a unit of the stack. The
roots start it (`frontier_roots`), since a root is below nothing, and one step keeps it
(`Frontier.step`). Under it the children the walk takes from the pool are all the children of the
unit it visits (`Frontier.children_eq`), so the walk grows the forest (`descend_grows`). What the
forest holds, and in which order, is read off the forest alone (§1, §4); the rest of the order is
the path-sorted remainder.

  §1 Grown forests read back.
  §2 Climbing inside a list.
  §3 The walk from the roots.
  §4 The hierarchy order.
-/

namespace TenantForest

namespace Outline

/-! ## §1 Grown forests read back -/

namespace Grows

variable {kids : Entity → List Entity} {xs : List Entity} {os : List Outline}

/-- The units a forest is grown from are read in its pre-order. -/
theorem mem_flatten_of_mem (h : Grows kids xs os) {x : Entity} (hx : x ∈ xs) :
    x ∈ flatten os := by
  induction h with
  | nil => cases hx
  | cons _ _ _ iho =>
    rcases List.mem_cons.1 hx with rfl | hx
    · simp
    · simp [iho hx]

/-- **A grown forest cut at one of its units.** Every unit read in the pre-order of a grown
forest is followed at once by the pre-order of the forest grown from its kids. -/
theorem split_at (h : Grows kids xs os) {u : Entity} (hu : u ∈ flatten os) :
    ∃ cs l₁ l₂, Grows kids (kids u) cs ∧ flatten os = l₁ ++ u :: (flatten cs ++ l₂) := by
  induction h with
  | nil => simp at hu
  | @cons x xs cs os hg _ ihg iho =>
    rw [flatten_cons] at hu ⊢
    rcases List.mem_cons.1 hu with rfl | hu
    · exact ⟨cs, [], flatten os, hg, by simp⟩
    rcases List.mem_append.1 hu with hu | hu
    · obtain ⟨cs', l₁, l₂, hg', hflat⟩ := ihg hu
      exact ⟨cs', x :: l₁, l₂ ++ flatten os, hg', by simp [hflat]⟩
    · obtain ⟨cs', l₁, l₂, hg', hflat⟩ := iho hu
      exact ⟨cs', x :: (flatten cs ++ l₁), l₂, hg', by simp [hflat]⟩

/-- The kids of a unit read in a grown forest are read in it too. -/
theorem kid_mem_flatten (h : Grows kids xs os) {u c : Entity} (hu : u ∈ flatten os)
    (hc : c ∈ kids u) : c ∈ flatten os := by
  obtain ⟨cs, l₁, l₂, hg, hflat⟩ := h.split_at hu
  rw [hflat]
  simp [hg.mem_flatten_of_mem hc]

/-- A property of the units a forest is grown from that every unit hands down to its kids holds
of every unit of the forest. -/
theorem forall_flatten (h : Grows kids xs os) (P : Entity → Prop) (hxs : ∀ x ∈ xs, P x)
    (hkids : ∀ x, P x → ∀ c ∈ kids x, P c) : ∀ u ∈ flatten os, P u := by
  induction h with
  | nil => simp
  | @cons x xs cs os _ _ ihg iho =>
    have hx : P x := hxs x List.mem_cons_self
    intro u hu
    rw [flatten_cons] at hu
    rcases List.mem_cons.1 hu with rfl | hu
    · exact hx
    rcases List.mem_append.1 hu with hu | hu
    · exact ihg (hkids x hx) u hu
    · exact iho (fun y hy => hxs y (List.mem_cons_of_mem x hy)) u hu

end Grows

end Outline

namespace Order

/-! ## §2 Climbing inside a list -/

/-- Climbing parent links from `e` through the units `nodes` arrives at a root. -/
inductive Rooted (nodes : List Entity) : Entity → Prop
  /-- A root. -/
  | root {e : Entity} : e.parent = none → Rooted nodes e
  /-- A unit whose parent link names a unit of the list that climbs to a root. -/
  | child {e P : Entity} : P ∈ nodes → e.parent = some P.id → Rooted nodes P → Rooted nodes e

/-- Climbing parent links from `e` through the units `nodes` passes `a`. -/
inductive Below (nodes : List Entity) : Entity → Entity → Prop
  /-- The parent link of `e` names `a`, a unit of the list. -/
  | parent {e a : Entity} : a ∈ nodes → e.parent = some a.id → Below nodes e a
  /-- The parent link of `e` names a unit of the list below `a`. -/
  | climb {e P a : Entity} : P ∈ nodes → e.parent = some P.id → Below nodes P a →
      Below nodes e a

/-- The roots among the units, in sibling order. -/
def sortedRoots (nodes : List Entity) : List Entity :=
  sortWith bySibling (nodes.filter Entity.isRoot)

/-- The children of `x` among the units, in sibling order. -/
def sortedChildren (nodes : List Entity) (x : Entity) : List Entity :=
  sortWith bySibling (nodes.filter (Store.isChildOf x.id))

variable {nodes : List Entity}

/-- The roots in sibling order are the units without a parent. -/
@[simp] theorem mem_sortedRoots {x : Entity} : x ∈ sortedRoots nodes ↔ x ∈ nodes ∧ x.parent = none := by
  rw [sortedRoots, List.Perm.mem_iff (sortWith_perm _)]
  simp [Entity.isRoot]

/-- The children of `x` in sibling order are the units whose parent link names `x`. -/
@[simp] theorem mem_sortedChildren {x c : Entity} :
    c ∈ sortedChildren nodes x ↔ c ∈ nodes ∧ c.parent = some x.id := by
  rw [sortedChildren, List.Perm.mem_iff (sortWith_perm _)]
  simp [Store.isChildOf]

/-- Climbs compose. -/
theorem Below.trans {e y a : Entity} (hey : Below nodes e y) (hya : Below nodes y a) :
    Below nodes e a := by
  induction hey with
  | parent hy hpar => exact .climb hy hpar hya
  | climb hP hpar _ ih => exact .climb hP hpar (ih hya)

/-- A unit below another has its parent among the units. -/
theorem Below.parent_mem {e a : Entity} (h : Below nodes e a) :
    ∃ P ∈ nodes, e.parent = some P.id := by
  cases h with
  | parent ha hpar => exact ⟨_, ha, hpar⟩
  | climb hP hpar _ => exact ⟨_, hP, hpar⟩

section Distinct

variable (hids : (nodes.map Entity.id).Nodup)
include hids

/-- A parent link names one unit of the list. -/
theorem eq_of_parent {e P Q : Entity} (hP : P ∈ nodes) (hQ : Q ∈ nodes)
    (hp : e.parent = some P.id) (hq : e.parent = some Q.id) : P = Q :=
  List.inj_on_of_nodup_map hids hP hQ (Option.some.inj (hp.symm.trans hq))

/-- A climb from a unit whose parent is `P` passes `P` first. -/
theorem Below.of_parent {e P a : Entity} (hP : P ∈ nodes) (hpar : e.parent = some P.id)
    (h : Below nodes e a) : a = P ∨ Below nodes P a := by
  cases h with
  | parent ha hpar' => exact .inl (eq_of_parent hids ha hP hpar' hpar)
  | climb hQ hpar' rest =>
    obtain rfl := eq_of_parent hids hQ hP hpar' hpar
    exact .inr rest

/-- The parent of a rooted unit is rooted. -/
theorem Rooted.parent {e P : Entity} (h : Rooted nodes e) (hP : P ∈ nodes)
    (hpar : e.parent = some P.id) : Rooted nodes P := by
  cases h with
  | root hroot => simp [hroot] at hpar
  | child hQ hpar' hQr =>
    obtain rfl := eq_of_parent hids hQ hP hpar' hpar
    exact hQr

end Distinct

/-! ## §3 The walk from the roots -/

/-- What the walk from the roots keeps: its pool is part of the units, in their order, and apart
from its stack; every unit below a unit of the stack is still in the pool; and no unit of the
stack is below a unit of the stack. -/
structure Frontier (nodes pool stack : List Entity) : Prop where
  /-- The pool is part of the units, in their order. -/
  pool_sublist : pool.Sublist nodes
  /-- The stack holds units too, each once, and none of the pool. -/
  stack_mem : ∀ y ∈ stack, y ∈ nodes
  nodup : stack.Nodup
  stack_not_pool : ∀ y ∈ stack, y ∉ pool
  /-- Every unit below a unit of the stack is still in the pool. -/
  closed : ∀ y ∈ stack, ∀ e ∈ nodes, Below nodes e y → e ∈ pool
  /-- No unit of the stack is below a unit of the stack. -/
  apart : ∀ a ∈ stack, ∀ b ∈ stack, ¬ Below nodes a b

/-- The invariant asks what the stack holds, not in which order. -/
theorem Frontier.perm {pool stack stack' : List Entity} (hw : Frontier nodes pool stack)
    (hp : stack'.Perm stack) : Frontier nodes pool stack' :=
  ⟨hw.pool_sublist, fun y hy => hw.stack_mem y (hp.subset hy), hp.nodup_iff.2 hw.nodup,
    fun y hy => hw.stack_not_pool y (hp.subset hy), fun y hy => hw.closed y (hp.subset hy),
    fun a ha b hb => hw.apart a (hp.subset ha) b (hp.subset hb)⟩

/-- The children the walk takes for the unit on top of the stack come from the pool and name
that unit as their parent. -/
theorem Frontier.kid {pool rest : List Entity} {x k : Entity} (hw : Frontier nodes pool (x :: rest))
    (hk : k ∈ (Store.splitChildren x.id pool).1) : k ∈ pool ∧ k ∈ nodes ∧ k.parent = some x.id := by
  obtain ⟨hkp, hkx⟩ := Store.mem_splitChildren_fst.1 hk
  exact ⟨hkp, hw.pool_sublist.subset hkp, hkx⟩

section Distinct

variable (hids : (nodes.map Entity.id).Nodup)
include hids

/-- The children the walk takes from the pool for the unit on top of the stack are all the
children of that unit among the units, in their order. -/
theorem Frontier.children_eq {pool rest : List Entity} {x : Entity}
    (hw : Frontier nodes pool (x :: rest)) :
    (Store.splitChildren x.id pool).1 = nodes.filter (Store.isChildOf x.id) := by
  have hsub : (Store.splitChildren x.id pool).1.Sublist (nodes.filter (Store.isChildOf x.id)) :=
    hw.pool_sublist.filter _
  -- a sublist of the children that holds every child is all of them
  refine hsub.eq_of_length_le (List.Subperm.length_le ?_)
  refine List.Nodup.subperm ((List.Nodup.of_map Entity.id hids).sublist List.filter_sublist)
    fun e he => ?_
  obtain ⟨hm, hc⟩ := List.mem_filter.1 he
  have hpar : e.parent = some x.id := by simpa [Store.isChildOf] using hc
  exact Store.mem_splitChildren_fst.2 ⟨hw.closed x List.mem_cons_self e hm
    (.parent (hw.stack_mem x List.mem_cons_self) hpar), hpar⟩

/-- One step of the walk keeps its invariant: the children of the visited unit go from the pool
to the top of the stack. -/
theorem Frontier.step {pool rest : List Entity} {x : Entity} (hw : Frontier nodes pool (x :: rest)) :
    Frontier nodes (Store.splitChildren x.id pool).2 ((Store.splitChildren x.id pool).1 ++ rest) := by
  have hx : x ∈ nodes := hw.stack_mem x List.mem_cons_self
  have hxp : x ∉ pool := hw.stack_not_pool x List.mem_cons_self
  have hxrest : x ∉ rest := (List.nodup_cons.1 hw.nodup).1
  -- no unit of the new stack is `x`, or has `x` below it
  have not_x : ∀ b ∈ (Store.splitChildren x.id pool).1 ++ rest, b ≠ x := by
    rintro b hb rfl
    rcases List.mem_append.1 hb with hb | hb
    · exact hxp (hw.kid hb).1
    · exact hxrest hb
  have x_not_below : ∀ b ∈ (Store.splitChildren x.id pool).1 ++ rest, ¬ Below nodes x b := by
    intro b hb hxb
    rcases List.mem_append.1 hb with hb | hb
    · -- `b` is a child of `x`, so `x` would be below itself
      exact hw.apart x List.mem_cons_self x List.mem_cons_self
        (hxb.trans (.parent hx (hw.kid hb).2.2))
    · exact hw.apart x List.mem_cons_self b (List.mem_cons_of_mem x hb) hxb
  -- a child of `x` is below no unit of the new stack: its climb passes `x` first
  have child_not_below : ∀ e : Entity, e.parent = some x.id →
      ∀ b ∈ (Store.splitChildren x.id pool).1 ++ rest, ¬ Below nodes e b := by
    intro e hex b hb heb
    rcases heb.of_parent hids hx hex with rfl | hxb
    · exact not_x b hb rfl
    · exact x_not_below b hb hxb
  refine ⟨List.filter_sublist.trans hw.pool_sublist, ?_, ?_, ?_, ?_, ?_⟩
  · intro y hy
    rcases List.mem_append.1 hy with hy | hy
    · exact (hw.kid hy).2.1
    · exact hw.stack_mem y (List.mem_cons_of_mem x hy)
  · refine List.nodup_append.2 ⟨((List.Nodup.of_map Entity.id hids).sublist
      hw.pool_sublist).sublist List.filter_sublist, (List.nodup_cons.1 hw.nodup).2, ?_⟩
    rintro k hk y hy rfl
    exact hw.stack_not_pool k (List.mem_cons_of_mem x hy) (hw.kid hk).1
  · intro y hy hyp
    rcases List.mem_append.1 hy with hy | hy
    · exact (Store.mem_splitChildren_snd.1 hyp).2 (Store.mem_splitChildren_fst.1 hy).2
    · exact hw.stack_not_pool y (List.mem_cons_of_mem x hy) (Store.mem_splitChildren_snd.1 hyp).1
  · intro y hy e he hey
    -- `e` is below a unit of the old stack, so it is in the pool, and it is no child of `x`
    have hep : e ∈ pool := by
      rcases List.mem_append.1 hy with hy | hy
      · exact hw.closed x List.mem_cons_self e he (hey.trans (.parent hx (hw.kid hy).2.2))
      · exact hw.closed y (List.mem_cons_of_mem x hy) e he hey
    exact Store.mem_splitChildren_snd.2 ⟨hep, fun hex => child_not_below e hex y hy hey⟩
  · intro a ha b hb hab
    rcases List.mem_append.1 ha with ha | ha
    · exact child_not_below a (hw.kid ha).2.2 b hb hab
    · rcases List.mem_append.1 hb with hb | hb
      · -- a unit of the rest below a child of `x` would be below `x`
        exact hw.apart a (List.mem_cons_of_mem x ha) x List.mem_cons_self
          (hab.trans (.parent hx (hw.kid hb).2.2))
      · exact hw.apart a (List.mem_cons_of_mem x ha) b (List.mem_cons_of_mem x hb) hab

/-- The roots start the walk in its invariant: a root is below nothing, and every unit below one
has its parent among the units, so it waits in the pool. -/
theorem frontier_roots :
    Frontier nodes (nodes.filter fun e => !e.isRoot && linked (nodes.map Entity.id) e)
      (sortedRoots nodes) := by
  have root_free : ∀ a ∈ sortedRoots nodes, ∀ b, ¬ Below nodes a b := by
    intro a ha b hab
    obtain ⟨P, -, hpar⟩ := hab.parent_mem
    simp [(mem_sortedRoots.1 ha).2] at hpar
  refine ⟨List.filter_sublist, fun y hy => (mem_sortedRoots.1 hy).1,
    (sortWith_perm _).nodup_iff.2 ((List.Nodup.of_map Entity.id hids).sublist List.filter_sublist),
    fun y hy hyp => ?_, fun y _ e he hey => ?_, fun a ha b _ => root_free a ha b⟩
  · have hroot := (mem_sortedRoots.1 hy).2
    simp [Entity.isRoot, hroot] at hyp
  · obtain ⟨P, hP, hpar⟩ := hey.parent_mem
    have hlinked : linked (nodes.map Entity.id) e = true := by
      unfold linked
      rw [hpar]
      exact List.contains_iff_mem.2 (List.mem_map_of_mem hP)
    exact List.mem_filter.2 ⟨he, by simp [Entity.isRoot, hpar, hlinked]⟩

/-- **The walk grows a forest.** From a state the walk keeps its invariant for, the units it
visits are the pre-order of the forest grown from the stack, each unit with its children among
the units in sibling order. -/
theorem descend_grows (pool stack : List Entity) (hw : Frontier nodes pool stack) :
    ∃ os, Outline.Grows (sortedChildren nodes) stack os ∧
      Outline.flatten os = (descend pool stack).1 := by
  induction pool, stack using descend.induct with
  | case1 pool => exact ⟨[], .nil, by rw [descend.eq_1, Outline.flatten_nil]⟩
  | case2 pool x rest parts seen left h ih =>
    obtain ⟨os, hg, hflat⟩ := ih ((hw.step hids).perm ((sortWith_perm _).append_right rest))
    rw [h] at hflat
    -- the forest of the new stack is the children's subtrees, then the rest's
    obtain ⟨cs, os', rfl, hcs, hos⟩ := hg.append_inv
    refine ⟨.node x cs :: os', .cons ?_ hos, ?_⟩
    · rwa [sortedChildren, ← hw.children_eq hids]
    · rw [descend.eq_2, h, Outline.flatten_cons, List.cons_append, ← Outline.flatten_append,
        hflat]

end Distinct

/-! ## §4 The hierarchy order -/

/-- The hierarchy order is the walk from the roots, then other units in path order. -/
theorem hierarchy_eq_walk (sep : String) (nodes : List Entity) : ∃ xs,
    hierarchy sep nodes =
      (descend (nodes.filter fun e => !e.isRoot && linked (nodes.map Entity.id) e)
        (sortedRoots nodes)).1 ++ sortWith (byPath sep) xs :=
  ⟨_, rfl⟩

/-- What follows a part of a rearrangement of distinct units is the units not in that part. -/
theorem mem_of_append_perm (hids : (nodes.map Entity.id).Nodup) {front back : List Entity}
    (hperm : (front ++ back).Perm nodes) {e : Entity} : e ∈ back ↔ e ∈ nodes ∧ e ∉ front := by
  have hnd : (front ++ back).Nodup := hperm.nodup_iff.2 (List.Nodup.of_map Entity.id hids)
  constructor
  · intro he
    exact ⟨hperm.subset (List.mem_append_right _ he),
      fun hf => (List.nodup_append.1 hnd).2.2 e hf e he rfl⟩
  · rintro ⟨he, hf⟩
    rcases List.mem_append.1 (hperm.symm.subset he) with h | h
    · exact absurd h hf
    · exact h

/-- Units in path order whose identifiers differ come in strictly increasing path order. -/
theorem pairwise_byPath_lt {sep : String} {ys : List Entity}
    (hsorted : ys.Pairwise fun a b => byPath sep a b ≠ .gt) (hnd : (ys.map Entity.id).Nodup) :
    ys.Pairwise fun a b => byPath sep a b = .lt := by
  refine (hsorted.and (List.pairwise_map.1 hnd)).imp ?_
  intro a b ⟨hle, hne⟩
  cases h : byPath sep a b with
  | lt => rfl
  | eq => exact absurd (id_eq_of_byPath h) hne
  | gt => exact absurd h hle

section Forest

variable {os : List Outline} (hg : Outline.Grows (sortedChildren nodes) (sortedRoots nodes) os)
include hg

/-- The units of the forest grown from the roots are the rooted units. -/
theorem mem_flatten_iff_rooted {e : Entity} :
    e ∈ Outline.flatten os ↔ e ∈ nodes ∧ Rooted nodes e := by
  constructor
  · -- every unit grown from a root climbs to it
    refine hg.forall_flatten (fun e => e ∈ nodes ∧ Rooted nodes e) (fun x hx => ?_)
      (fun x hx c hc => ?_) e
    · obtain ⟨hxn, hroot⟩ := mem_sortedRoots.1 hx
      exact ⟨hxn, .root hroot⟩
    · obtain ⟨hcn, hpar⟩ := mem_sortedChildren.1 hc
      exact ⟨hcn, .child hx.1 hpar hx.2⟩
  · rintro ⟨he, hr⟩
    -- a root is grown from, and a rooted child is grown from its rooted parent
    induction hr with
    | root hroot => exact hg.mem_flatten_of_mem (mem_sortedRoots.2 ⟨he, hroot⟩)
    | child hP hpar _ ih => exact hg.kid_mem_flatten (ih hP) (mem_sortedChildren.2 ⟨he, hpar⟩)

omit hg in
/-- A unit below `e` is grown in the forest grown from the children of `e`. -/
theorem Below.mem_flatten {e y : Entity} (h : Below nodes y e) (hy : y ∈ nodes) {cs : List Outline}
    (hcs : Outline.Grows (sortedChildren nodes) (sortedChildren nodes e) cs) :
    y ∈ Outline.flatten cs := by
  induction h with
  | parent _ hpar => exact hcs.mem_flatten_of_mem (mem_sortedChildren.2 ⟨hy, hpar⟩)
  | climb hP hpar _ ih => exact hcs.kid_mem_flatten (ih hP hcs) (mem_sortedChildren.2 ⟨hy, hpar⟩)

/-- **Each subtree is read in one piece.** Every unit of the forest grown from the roots is
followed at once by exactly the units below it. -/
theorem subtree_contiguous {e : Entity} (he : e ∈ Outline.flatten os) :
    ∃ l₁ sub l₂, Outline.flatten os = l₁ ++ e :: (sub ++ l₂) ∧
      ∀ y, y ∈ sub ↔ y ∈ nodes ∧ Below nodes y e := by
  obtain ⟨cs, l₁, l₂, hcs, hflat⟩ := hg.split_at he
  have hen : e ∈ nodes := ((mem_flatten_iff_rooted hg).1 he).1
  refine ⟨l₁, Outline.flatten cs, l₂, hflat, fun y => ⟨fun hy => ?_, fun ⟨hy, hye⟩ => ?_⟩⟩
  · -- what is grown from the children of `e` is below `e`
    refine hcs.forall_flatten (fun y => y ∈ nodes ∧ Below nodes y e) (fun c hc => ?_)
      (fun x hx c hc => ?_) y hy
    · obtain ⟨hcn, hpar⟩ := mem_sortedChildren.1 hc
      exact ⟨hcn, .parent hen hpar⟩
    · obtain ⟨hcn, hpar⟩ := mem_sortedChildren.1 hc
      exact ⟨hcn, .climb hx.1 hpar hx.2⟩
  · exact hye.mem_flatten hy hcs

/-- **Each unit comes after its parent** in the forest grown from the roots. -/
theorem parent_before (hids : (nodes.map Entity.id).Nodup) {e P : Entity}
    (he : e ∈ Outline.flatten os) (hP : P ∈ nodes) (hpar : e.parent = some P.id) :
    ∃ l₁ l₂, Outline.flatten os = l₁ ++ P :: l₂ ∧ e ∈ l₂ := by
  obtain ⟨hen, hr⟩ := (mem_flatten_iff_rooted hg).1 he
  have hPf : P ∈ Outline.flatten os := (mem_flatten_iff_rooted hg).2 ⟨hP, hr.parent hids hP hpar⟩
  obtain ⟨l₁, sub, l₂, hflat, hsub⟩ := subtree_contiguous hg hPf
  exact ⟨l₁, sub ++ l₂, hflat, List.mem_append_left _ ((hsub e).2 ⟨hen, .parent hP hpar⟩)⟩

end Forest

/-- **The hierarchy order on any units.** For units with distinct identifiers, whatever their
parent links, the hierarchy order rearranges the units, losing and repeating none, and comes in
two parts. First the units that climb to a root, as the pre-order of the forest grown from the
roots in sibling order, each unit with its children in sibling order: each unit comes after its
parent, and is followed at once by exactly the units below it. Then every other unit, in strictly
increasing path order. -/
theorem hierarchy_rooted_then_stranded (sep : String) (nodes : List Entity)
    (hids : (nodes.map Entity.id).Nodup) :
    (hierarchy sep nodes).Perm nodes ∧
      ∃ os rest, Outline.Grows (sortedChildren nodes) (sortedRoots nodes) os ∧
        hierarchy sep nodes = Outline.flatten os ++ rest ∧
        (∀ e, e ∈ Outline.flatten os ↔ e ∈ nodes ∧ Rooted nodes e) ∧
        (∀ e ∈ Outline.flatten os, ∀ P ∈ nodes, e.parent = some P.id →
          ∃ l₁ l₂, Outline.flatten os = l₁ ++ P :: l₂ ∧ e ∈ l₂) ∧
        (∀ e ∈ Outline.flatten os, ∃ l₁ sub l₂, Outline.flatten os = l₁ ++ e :: (sub ++ l₂) ∧
          ∀ y, y ∈ sub ↔ y ∈ nodes ∧ Below nodes y e) ∧
        (∀ e, e ∈ rest ↔ e ∈ nodes ∧ ¬ Rooted nodes e) ∧
        rest.Pairwise fun a b => byPath sep a b = .lt := by
  obtain ⟨os, hg, hflat⟩ := descend_grows hids _ _ (frontier_roots hids)
  obtain ⟨xs, hsplit⟩ := hierarchy_eq_walk sep nodes
  rw [← hflat] at hsplit
  have hperm : (Outline.flatten os ++ sortWith (byPath sep) xs).Perm nodes := by
    rw [← hsplit]
    exact hierarchy_perm sep nodes
  -- the path-sorted part holds distinct identifiers, so it is strictly increasing
  have hrest : ((sortWith (byPath sep) xs).map Entity.id).Nodup := by
    have hall := (hperm.map Entity.id).nodup_iff.2 hids
    rw [List.map_append] at hall
    exact (List.nodup_append.1 hall).2.1
  refine ⟨hierarchy_perm sep nodes, os, sortWith (byPath sep) xs, hg, hsplit,
    fun e => mem_flatten_iff_rooted hg, fun e he P hP hpar => parent_before hg hids he hP hpar,
    fun e he => subtree_contiguous hg he, fun e => ?_,
    pairwise_byPath_lt (sortWith_pairwise xs) hrest⟩
  rw [mem_of_append_perm hids hperm, mem_flatten_iff_rooted hg]
  exact and_congr_right fun he => by simp [he]

/-- An active unit of tenant 1 with the `n`-th serial identifier, the given name and path, and a
parent link to the `p`-th serial identifier, if any. -/
def strayUnit (n : Nat) (name : String) (p : Option Nat) (path : String) : Entity :=
  { id := Ident.serial n, tenant := Ident.ofNat 1, name := name, kind := .generic,
    parent := p.map Ident.serial, path := path, level := 0, metadata := .record [],
    state := .active, version := 1, createdBy := none, updatedBy := none }

/-- A root `R` with children `B` and `A` (listed out of sibling order) and a grandchild `C`
under `B`; a unit `S` that is its own parent; units `X` and `Y` whose parent links name each
other; and a unit `O` whose parent is not in the list, with a child `P`. -/
def strayUnits : List Entity :=
  [strayUnit 1 "R" none "R", strayUnit 2 "B" (some 1) "R > B", strayUnit 3 "A" (some 1) "R > A",
    strayUnit 4 "C" (some 2) "R > B > C", strayUnit 5 "S" (some 5) "S",
    strayUnit 6 "X" (some 7) "X", strayUnit 7 "Y" (some 6) "X > Y",
    strayUnit 8 "O" (some 99) "Q > O", strayUnit 9 "P" (some 8) "Q > O > P"]

/-- The hierarchy order of the stray units: `R`, `A`, `B`, `C` from the root, then the units no
root reaches, `S`, `X`, `Y`, `O` and `P`, in path order. -/
theorem stray_units_rooted_then_stranded :
    (strayUnits.map Entity.id).Nodup ∧
      (hierarchy " > " strayUnits).Perm strayUnits ∧
      ∃ os rest, Outline.Grows (sortedChildren strayUnits) (sortedRoots strayUnits) os ∧
        hierarchy " > " strayUnits = Outline.flatten os ++ rest ∧
        (∀ e, e ∈ Outline.flatten os ↔ e ∈ strayUnits ∧ Rooted strayUnits e) ∧
        (∀ e ∈ Outline.flatten os, ∀ P ∈ strayUnits, e.parent = some P.id →
          ∃ l₁ l₂, Outline.flatten os = l₁ ++ P :: l₂ ∧ e ∈ l₂) ∧
        (∀ e ∈ Outline.flatten os, ∃ l₁ sub l₂, Outline.flatten os = l₁ ++ e :: (sub ++ l₂) ∧
          ∀ y, y ∈ sub ↔ y ∈ strayUnits ∧ Below strayUnits y e) ∧
        (∀ e, e ∈ rest ↔ e ∈ strayUnits ∧ ¬ Rooted strayUnits e) ∧
        rest.Pairwise fun a b => byPath " > " a b = .lt :=
  have hids : (strayUnits.map Entity.id).Nodup := by decide
  ⟨hids, hierarchy_rooted_then_stranded " > " strayUnits hids⟩

end Order

end TenantForest

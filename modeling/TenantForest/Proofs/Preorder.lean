import TenantForest.Proofs.WellFormed
import TenantForest.Proofs.Segments

/-!
# The hierarchy order is the path order

The hierarchy walk and the path order are two unrelated algorithms: the walk takes a unit
from the top of a stack and pushes its children, sorted by (name, identifier), in front of
the rest; the path order sorts by the segments of the paths, compared text by text, a
proper prefix first, ties broken by identifier. On units laid out as a forest whose path
keys follow the parent links, where siblings have distinct names, the two agree.

The walk keeps a stack whose units part pairwise, each before the next: their keys agree up to
a position where the earlier one's segment comes first (`Parts`), so whatever extends the
earlier key comes before whatever extends the later. Every unit of the pool has its parent in
the pool or on the stack (`Walkable`). From this, every pool unit extends the key of some
stack unit (`Walkable.reach`), so the unit taken from the top comes before everything the walk
visits after it, and when the stack runs out the pool is empty. Sorting is unique for an order
in which only equal units compare equal, so the walk's output is the sorted list.

  §1 Sorting.
  §2 The two orders as lexicographic comparisons.
  §3 Keys that part.
  §4 The walk.
  §5 Units laid out as a forest.
-/

namespace TenantForest

namespace Order

/-! ## §1 Sorting -/

section Sorting

variable {cmp : Entity → Entity → Ordering} [Std.TransCmp cmp]

/-- A list sorted with a transitive comparison is in order: no unit comes before one it
compares above. -/
theorem sortWith_pairwise (xs : List Entity) :
    (sortWith cmp xs).Pairwise (fun a b => cmp a b ≠ .gt) := by
  have trans : ∀ a b c : Entity, (cmp a b != .gt) = true → (cmp b c != .gt) = true →
      (cmp a c != .gt) = true := by
    intro a b c hab hbc
    simp only [bne_iff_ne, ne_eq, Ordering.ne_gt_iff_isLE] at hab hbc ⊢
    exact Std.TransCmp.isLE_trans hab hbc
  have total : ∀ a b : Entity, ((cmp a b != .gt) || (cmp b a != .gt)) = true := by
    intro a b
    cases h : cmp a b
    all_goals simp [Std.OrientedCmp.gt_iff_lt, h]
  exact (List.pairwise_mergeSort trans total xs).imp fun h => by simpa using h

omit [Std.TransCmp cmp] in
/-- Sorting rearranges. -/
theorem sortWith_perm (xs : List Entity) : (sortWith cmp xs).Perm xs :=
  List.mergeSort_perm xs _

/-- A rearrangement of `xs` that is in order is `xs` sorted, when only equal units of `xs`
compare equal. -/
theorem sortWith_eq_of_pairwise {xs ys : List Entity} (hperm : ys.Perm xs)
    (hys : ys.Pairwise (fun a b => cmp a b ≠ .gt))
    (heq : ∀ a ∈ xs, ∀ b ∈ xs, cmp a b = .eq → a = b) : sortWith cmp xs = ys := by
  refine List.Perm.eq_of_pairwise (fun a b ha hb hab hba => heq a ?_ b ?_ ?_)
    (sortWith_pairwise xs) hys ((sortWith_perm xs).trans hperm.symm)
  · exact (sortWith_perm xs).subset ha
  · exact hperm.subset hb
  -- neither above the other: equal
  · have hswap : cmp b a = (cmp a b).swap := Std.OrientedCmp.eq_swap
    rw [hswap, ne_eq, Ordering.swap_eq_gt] at hba
    cases h : cmp a b <;> simp_all

end Sorting

/-! ## §2 The two orders as lexicographic comparisons -/

/-- The segments of a unit's path, which the path order compares. -/
def pathKey (sep : String) (e : Entity) : List String := Text.segments e.path sep

/-- A transitive comparison of keys compares their owners transitively. -/
theorem transCmp_on {β : Type} {cmp : β → β → Ordering} [Std.TransCmp cmp] (key : Entity → β) :
    Std.TransCmp (fun a b => cmp (key a) (key b)) where
  eq_swap := Std.OrientedCmp.eq_swap
  isLE_trans := Std.TransCmp.isLE_trans

/-- The sibling order compares names, then identifiers. -/
theorem bySibling_eq : bySibling =
    compareLex (fun a b => Text.compareText a.name b.name) (compareOn fun e => e.id.bits) := by
  funext a b
  simp only [bySibling, compareLex, compareOn]
  cases Text.compareText a.name b.name <;> rfl

/-- The path order compares path keys, then identifiers. -/
theorem byPath_eq (sep : String) : byPath sep =
    compareLex (fun a b => Text.compareTexts (pathKey sep a) (pathKey sep b))
      (compareOn fun e => e.id.bits) := by
  funext a b
  simp only [byPath, pathKey, compareLex, compareOn]
  cases Text.compareTexts (Text.segments a.path sep) (Text.segments b.path sep) <;> rfl

instance : Std.TransCmp bySibling := by
  have : Std.TransCmp (fun a b : Entity => Text.compareText a.name b.name) :=
    transCmp_on Entity.name
  rw [bySibling_eq]
  infer_instance

instance (sep : String) : Std.TransCmp (byPath sep) := by
  have : Std.TransCmp (fun a b : Entity => Text.compareTexts (pathKey sep a) (pathKey sep b)) :=
    transCmp_on (pathKey sep)
  rw [byPath_eq]
  infer_instance

/-- Units that come in order by key come in path order. -/
theorem byPath_of_lt {sep : String} {a b : Entity}
    (h : Text.compareTexts (pathKey sep a) (pathKey sep b) = .lt) : byPath sep a b = .lt := by
  rw [byPath_eq, compareLex, h]
  rfl

/-- Units equal in path order share their identifier. -/
theorem id_eq_of_byPath {sep : String} {a b : Entity} (h : byPath sep a b = .eq) : a.id = b.id := by
  rw [byPath_eq, compareLex_eq_eq, compareOn, Nat.compare_eq_eq] at h
  obtain ⟨_, hbits⟩ := h
  cases ha : a.id
  cases hb : b.id
  simp_all

/-- Siblings in order whose names differ come in the order of their names. -/
theorem compareText_of_bySibling {a b : Entity} (h : bySibling a b ≠ .gt) (hne : a.name ≠ b.name) :
    Text.compareText a.name b.name = .lt := by
  rw [bySibling_eq, compareLex] at h
  cases hab : Text.compareText a.name b.name
  · rfl
  · exact absurd (Std.LawfulEqCmp.eq_of_compare hab) hne
  · simp [hab] at h

/-! ## §3 Keys that part -/

/-- The key `k` parts from the key `l` before it: they agree up to a position where the
segment of `k` comes first. -/
def Parts (k l : List String) : Prop :=
  ∃ pre u v ra rb, k = pre ++ u :: ra ∧ l = pre ++ v :: rb ∧ Text.compareText u v = .lt

namespace Parts

variable {k l : List String}

/-- Keys that part come in order. -/
theorem lt (h : Parts k l) : Text.compareTexts k l = .lt := by
  obtain ⟨pre, u, v, ra, rb, rfl, rfl, huv⟩ := h
  exact Text.compareTexts_part pre ra rb huv

/-- What extends the earlier key still parts before the later. -/
theorem extend_left (h : Parts k l) (w : List String) : Parts (k ++ w) l := by
  obtain ⟨pre, u, v, ra, rb, rfl, rfl, huv⟩ := h
  exact ⟨pre, u, v, ra ++ w, rb, by simp, rfl, huv⟩

/-- The earlier key still parts before what extends the later. -/
theorem extend_right (h : Parts k l) (w : List String) : Parts k (l ++ w) := by
  obtain ⟨pre, u, v, ra, rb, rfl, rfl, huv⟩ := h
  exact ⟨pre, u, v, ra, rb ++ w, rfl, by simp, huv⟩

end Parts

/-! ## §4 The walk -/

/-- Units laid out as a forest under the separator `sep`: identifiers are distinct, every
parent link names one of the units, a root's key is its name, a child's key is its parent's
followed by its name, and siblings have distinct names. -/
structure Layout (sep : String) (nodes : List Entity) : Prop where
  /-- Identifiers are distinct. -/
  ids : (nodes.map Entity.id).Nodup
  /-- Every parent link names one of the units. -/
  parent_mem : ∀ e ∈ nodes, ∀ p, e.parent = some p → ∃ P ∈ nodes, P.id = p
  /-- A root's key is its name. -/
  root : ∀ e ∈ nodes, e.parent = none → pathKey sep e = [e.name]
  /-- A child's key is its parent's followed by its name. -/
  child : ∀ e ∈ nodes, ∀ P ∈ nodes, e.parent = some P.id →
    pathKey sep e = pathKey sep P ++ [e.name]
  /-- Siblings have distinct names. -/
  siblings : ∀ a ∈ nodes, ∀ b ∈ nodes, a.parent = b.parent → a.name = b.name → a = b

/-- What the walk keeps while it places the units: the pool holds units, once each, and so
does the stack; every unit of the pool has its parent in the pool or on the stack; and the
units of the stack part pairwise, each before the next. -/
structure Walkable (sep : String) (nodes pool stack : List Entity) : Prop where
  /-- The pool holds units. -/
  pool_sub : ∀ p ∈ pool, p ∈ nodes
  /-- The pool holds each unit once. -/
  pool_nodup : pool.Nodup
  /-- The stack holds units. -/
  stack_sub : ∀ x ∈ stack, x ∈ nodes
  /-- Every unit of the pool has its parent in the pool or on the stack. -/
  linked : ∀ p ∈ pool, ∃ P ∈ pool ++ stack, p.parent = some P.id
  /-- The units of the stack part pairwise, each before the next. -/
  parted : stack.Pairwise fun a b => Parts (pathKey sep a) (pathKey sep b)

section Walk

variable {sep : String} {nodes : List Entity}

/-- Siblings sorted in sibling order part pairwise, each before the next: their names
differ, and their keys are a common key followed by their names. -/
theorem Layout.parted_siblings (hl : Layout sep nodes) (o : Option Ident) (pre : List String)
    {sibs : List Entity} (hsub : ∀ e ∈ sibs, e ∈ nodes) (hnd : sibs.Nodup)
    (hpar : ∀ e ∈ sibs, e.parent = o) (hkey : ∀ e ∈ sibs, pathKey sep e = pre ++ [e.name]) :
    (sortWith bySibling sibs).Pairwise fun a b => Parts (pathKey sep a) (pathKey sep b) := by
  have hperm : (sortWith bySibling sibs).Perm sibs := sortWith_perm sibs
  refine ((sortWith_pairwise sibs).and (hperm.nodup_iff.2 hnd)).imp_of_mem ?_
  intro a b ha hb ⟨hab, hne⟩
  have ha' := hperm.subset ha
  have hb' := hperm.subset hb
  have hname : a.name ≠ b.name := fun h =>
    hne (hl.siblings a (hsub a ha') b (hsub b hb') ((hpar a ha').trans (hpar b hb').symm) h)
  exact ⟨pre, a.name, b.name, [], [], hkey a ha', hkey b hb', compareText_of_bySibling hab hname⟩

variable {pool stack : List Entity}

/-- Every unit of the pool extends the key of a unit of the stack: climbing its parent links
through the pool reaches the stack. -/
theorem Walkable.reach (hl : Layout sep nodes) (hw : Walkable sep nodes pool stack) :
    ∀ p ∈ pool, ∃ x ∈ stack, ∃ u w, pathKey sep p = pathKey sep x ++ u :: w := by
  -- by induction on the length of the key, which the parent's key shortens by one
  suffices climb : ∀ n, ∀ p ∈ pool, (pathKey sep p).length = n →
      ∃ x ∈ stack, ∃ u w, pathKey sep p = pathKey sep x ++ u :: w from
    fun p hp => climb _ p hp rfl
  intro n
  induction n using Nat.strongRecOn with
  | ind n ih =>
    intro p hp hn
    obtain ⟨P, hP, hpar⟩ := hw.linked p hp
    have hPn : P ∈ nodes := by
      rcases List.mem_append.1 hP with hP | hP
      · exact hw.pool_sub P hP
      · exact hw.stack_sub P hP
    have hkey := hl.child p (hw.pool_sub p hp) P hPn hpar
    rcases List.mem_append.1 hP with hPpool | hPstack
    · have hlt : (pathKey sep P).length < n := by
        rw [← hn, hkey, List.length_append]
        simp
      obtain ⟨x, hx, u, w, hPk⟩ := ih _ hlt P hPpool rfl
      exact ⟨x, hx, u, w ++ [p.name], by rw [hkey, hPk]; simp⟩
    · exact ⟨P, hPstack, p.name, [], hkey⟩

variable {x : Entity} {rest : List Entity}

/-- A child of the top of the stack, taken from the pool, has the top's key followed by its
name. -/
theorem Walkable.key_child (hl : Layout sep nodes) (hw : Walkable sep nodes pool (x :: rest))
    {c : Entity} (hc : c ∈ (Store.splitChildren x.id pool).1) :
    pathKey sep c = pathKey sep x ++ [c.name] :=
  have hc' := Store.mem_splitChildren_fst.1 hc
  hl.child c (hw.pool_sub c hc'.1) x (hw.stack_sub x List.mem_cons_self) hc'.2

/-- Visiting the top of the stack keeps the walk walkable: the children taken from the pool
go on the stack in sibling order, in front of the rest. -/
theorem Walkable.step (hl : Layout sep nodes) (hw : Walkable sep nodes pool (x :: rest)) :
    Walkable sep nodes (Store.splitChildren x.id pool).2
      (sortWith bySibling (Store.splitChildren x.id pool).1 ++ rest) := by
  have hchildren : (sortWith bySibling (Store.splitChildren x.id pool).1).Perm
      (Store.splitChildren x.id pool).1 := sortWith_perm _
  obtain ⟨hxrest, hrest⟩ := List.pairwise_cons.1 hw.parted
  refine ⟨fun p hp => hw.pool_sub p (Store.mem_splitChildren_snd.1 hp).1,
    hw.pool_nodup.sublist List.filter_sublist, fun y hy => ?_, fun p hp => ?_, ?_⟩
  · -- the new stack holds children from the pool and the rest of the old stack
    rcases List.mem_append.1 hy with hy | hy
    · exact hw.pool_sub y (Store.mem_splitChildren_fst.1 (hchildren.subset hy)).1
    · exact hw.stack_sub y (List.mem_cons_of_mem x hy)
  · -- a parent in the pool is a child or stays; a parent on the stack is not the top
    obtain ⟨hpool, hnot⟩ := Store.mem_splitChildren_snd.1 hp
    obtain ⟨P, hP, hpar⟩ := hw.linked p hpool
    refine ⟨P, ?_, hpar⟩
    rcases List.mem_append.1 hP with hP | hP
    · by_cases hPx : P.parent = some x.id
      · exact List.mem_append_right _ (List.mem_append_left _
          (hchildren.symm.subset (Store.mem_splitChildren_fst.2 ⟨hP, hPx⟩)))
      · exact List.mem_append_left _ (Store.mem_splitChildren_snd.2 ⟨hP, hPx⟩)
    · rcases List.mem_cons.1 hP with rfl | hP
      · exact absurd hpar hnot
      · exact List.mem_append_right _ (List.mem_append_right _ hP)
  · -- the children part among themselves, and before the rest as the top did
    refine List.pairwise_append.2 ⟨?_, hrest, fun a ha b hb => ?_⟩
    · exact hl.parted_siblings (some x.id) (pathKey sep x)
        (fun c hc => hw.pool_sub c (Store.mem_splitChildren_fst.1 hc).1)
        (hw.pool_nodup.sublist List.filter_sublist)
        (fun c hc => (Store.mem_splitChildren_fst.1 hc).2) fun c hc => hw.key_child hl hc
    · rw [hw.key_child hl (hchildren.subset ha)]
      exact (hxrest b hb).extend_left [a.name]

/-- **The walk visits in key order.** From a walkable state, each unit the walk visits comes
before every unit it visits later. -/
theorem descend_pairwise (hl : Layout sep nodes) (pool stack : List Entity)
    (hw : Walkable sep nodes pool stack) :
    (descend pool stack).1.Pairwise
      fun a b => Text.compareTexts (pathKey sep a) (pathKey sep b) = .lt := by
  induction pool, stack using descend.induct with
  | case1 pool => simp [descend]
  | case2 pool x rest parts seen left h ih =>
    have hw' := hw.step hl
    have hperm := descend_perm parts.2 (sortWith bySibling parts.1 ++ rest)
    rw [h] at hperm ih
    rw [descend.eq_2, h]
    refine List.Pairwise.cons (fun y hy => ?_) (ih hw')
    obtain ⟨hxrest, -⟩ := List.pairwise_cons.1 hw.parted
    -- what the walk visits after `x` was a child of `x`, below the stack, or in the pool
    rcases List.mem_append.1 (hperm.subset (List.mem_append_left left hy)) with hy | hy
    · rcases List.mem_append.1 hy with hy | hy
      · rw [hw.key_child hl ((sortWith_perm _).subset hy)]
        exact Text.compareTexts_extension _ _ _
      · exact (hxrest y hy).lt
    · obtain ⟨z, hz, u, w, hkey⟩ := hw.reach hl y (Store.mem_splitChildren_snd.1 hy).1
      rw [hkey]
      rcases List.mem_cons.1 hz with rfl | hz
      · exact Text.compareTexts_extension _ _ _
      · exact ((hxrest z hz).extend_right (u :: w)).lt

/-- **The walk places every unit.** From a walkable state, the walk leaves nothing of the
pool: when the stack runs out, no unit of the pool could reach it. -/
theorem descend_left (hl : Layout sep nodes) (pool stack : List Entity)
    (hw : Walkable sep nodes pool stack) : (descend pool stack).2 = [] := by
  induction pool, stack using descend.induct with
  | case1 pool =>
    rw [descend.eq_1, List.eq_nil_iff_forall_not_mem]
    intro p hp
    obtain ⟨x, hx, -⟩ := hw.reach hl p hp
    exact List.not_mem_nil hx
  | case2 pool x rest _ seen left h ih =>
    rw [h] at ih
    rw [descend.eq_2, h]
    exact ih (hw.step hl)

end Walk

/-! ## §5 Units laid out as a forest -/

section Layout

variable {sep : String} {nodes : List Entity}

/-- Every unit of a layout is linked: its parent, if any, is one of the units. -/
theorem Layout.linked_eq_true (hl : Layout sep nodes) {e : Entity} (he : e ∈ nodes) :
    linked (nodes.map Entity.id) e = true := by
  unfold linked
  split
  · rename_i p hp
    obtain ⟨P, hP, rfl⟩ := hl.parent_mem e he p hp
    exact List.contains_iff_mem.2 (List.mem_map_of_mem hP)
  · rfl

/-- A layout starts the walk walkable: the roots in sibling order on the stack, the other
units in the pool. -/
theorem Layout.walkable (hl : Layout sep nodes) :
    Walkable sep nodes (nodes.filter fun e => !e.isRoot && linked (nodes.map Entity.id) e)
      (sortWith bySibling (nodes.filter Entity.isRoot)) := by
  have hnodup : nodes.Nodup := List.Nodup.of_map Entity.id hl.ids
  have hroots : (sortWith bySibling (nodes.filter Entity.isRoot)).Perm
      (nodes.filter Entity.isRoot) := sortWith_perm _
  refine ⟨fun p hp => (List.mem_filter.1 hp).1, hnodup.sublist List.filter_sublist,
    fun x hx => (List.mem_filter.1 (hroots.subset hx)).1, fun p hp => ?_, ?_⟩
  · -- the parent of a unit that is not a root is a root or is not one
    obtain ⟨hpn, hpr⟩ := List.mem_filter.1 hp
    cases hpar : p.parent with
    | none => simp [Entity.isRoot, hpar] at hpr
    | some q =>
      obtain ⟨P, hP, rfl⟩ := hl.parent_mem p hpn q hpar
      refine ⟨P, ?_, rfl⟩
      cases hPr : P.isRoot
      · exact List.mem_append_left _ (List.mem_filter.2 ⟨hP, by simp [hPr, hl.linked_eq_true hP]⟩)
      · exact List.mem_append_right _ (hroots.symm.subset (List.mem_filter.2 ⟨hP, hPr⟩))
  · -- the roots are the children of none, keyed by their names
    have hpar : ∀ e ∈ nodes.filter Entity.isRoot, e.parent = none := fun e he => by
      simpa [Entity.isRoot] using (List.mem_filter.1 he).2
    exact hl.parted_siblings none [] (fun e he => (List.mem_filter.1 he).1)
      (hnodup.sublist List.filter_sublist) hpar
      (fun e he => hl.root e (List.mem_filter.1 he).1 (hpar e he))

/-- When every unit is linked and the walk from the roots leaves none over, the hierarchy order
is that walk: nothing is stranded and nothing is left to sort after it. -/
theorem hierarchy_eq_reached (hlinked : ∀ e ∈ nodes, linked (nodes.map Entity.id) e = true)
    (hleft : (descend (nodes.filter fun e => !e.isRoot && linked (nodes.map Entity.id) e)
      (sortWith bySibling (nodes.filter Entity.isRoot))).2 = []) :
    hierarchy sep nodes =
      (descend (nodes.filter fun e => !e.isRoot && linked (nodes.map Entity.id) e)
        (sortWith bySibling (nodes.filter Entity.isRoot))).1 := by
  have hstranded : nodes.filter (fun e => !linked (nodes.map Entity.id) e) = [] :=
    List.filter_eq_nil_iff.2 fun e he => by simp [hlinked e he]
  simp only [hierarchy, hstranded]
  generalize descend _ _ = r at hleft ⊢
  obtain ⟨reached, left⟩ := r
  simp only at hleft ⊢
  rw [hleft]
  simp [sortWith]

/-- On a layout the hierarchy order is the walk from the roots: no unit is stranded and the
walk leaves none over. -/
theorem Layout.hierarchy_eq_descend (hl : Layout sep nodes) :
    hierarchy sep nodes =
      (descend (nodes.filter fun e => !e.isRoot && linked (nodes.map Entity.id) e)
        (sortWith bySibling (nodes.filter Entity.isRoot))).1 :=
  hierarchy_eq_reached (fun _ he => hl.linked_eq_true he) (descend_left hl _ _ hl.walkable)

/-- **The hierarchy order is the path order.** On units laid out as a forest, the walk from
the roots, siblings in sibling order, visits the units in path order. -/
theorem Layout.hierarchy_eq (hl : Layout sep nodes) :
    hierarchy sep nodes = sortWith (byPath sep) nodes := by
  have hperm := hierarchy_perm sep nodes
  have hsorted := descend_pairwise hl _ _ hl.walkable
  rw [← hl.hierarchy_eq_descend] at hsorted
  refine (sortWith_eq_of_pairwise hperm (hsorted.imp fun h => ?_) fun a ha b hb h => ?_).symm
  · rw [byPath_of_lt h]
    decide
  · exact List.inj_on_of_nodup_map hl.ids ha hb (id_eq_of_byPath h)

end Layout

end Order

end TenantForest

import TenantForest.Proofs.Projection
import TenantForest.Proofs.Descendants
import TenantForest.Proofs.WellFormed

/-!
# What one tenant reads, across the projection

Every read of a tenant's units, and every walk a write makes before it writes, answers on
the projection what it answers on the store, renamed: the descendant walk and the cascade
planned from it, the ancestor climb and the cycle check on it, the sorted views, the
listing, the nested outline, the integrity report and the statistics.

Two things need more than an injective renaming.

* The orders break ties between units by identifier, so the renaming must keep the order
  of the identifiers of the tenant's units (`KeepsOrder`); the counter of one tenant hands
  out identifiers in the order the shared counter does.
* The ancestor climb has fuel for as many steps as the store has units, and the projection
  has fewer. Each step of the climb visits an active unit of the tenant not visited
  before, so any fuel beyond the number of those units gives the same answer
  (`Walk.climb_fuel`).

  §1 Walks — descendants, the cascade plan, the ancestor climb and the cycle check.
  §2 Orders — sorting, the hierarchy order and the listing.
  §3 Views — the outline, the integrity report and the statistics.
-/

namespace TenantForest

variable {σ : Ident → Ident}

/-- Renaming inside a list of identifiers keeps membership. -/
theorem contains_map (hσ : Function.Injective σ) (l : List Ident) (a : Ident) :
    (l.map σ).contains (σ a) = l.contains a := by
  rw [Bool.eq_iff_iff, List.contains_iff_mem, List.contains_iff_mem, List.mem_map]
  exact ⟨fun ⟨b, hb, h⟩ => hσ h ▸ hb, fun h => ⟨a, h, rfl⟩⟩

/-! ## §1 Walks -/

namespace Walk

/-- The descendant walk over renamed units yields the renamed walk. -/
theorem below_relabel (hσ : Function.Injective σ) (pool stack : List Entity) :
    below (pool.map (Entity.relabel σ)) (stack.map (Entity.relabel σ)) =
      (below pool stack).map (Entity.relabel σ) := by
  induction pool, stack using below.induct with
  | case1 pool => simp [below]
  | case2 pool x rest _ ih =>
    rw [List.map_cons, below.eq_2, below.eq_2, Entity.relabel_id, Store.splitChildren_relabel hσ,
      ← List.map_append, ih, List.map_cons]

end Walk

namespace Store

variable {t : Ident} {s : Store}

theorem descendants_project (hσ : Function.Injective σ) (x : Ident) :
    (s.project σ t).descendants (σ x) t = (s.descendants x t).map (Entity.relabel σ) := by
  have hpool : ((s.project σ t).activeOf t).filter (fun e => e.id != σ x) =
      ((s.activeOf t).filter (fun e => e.id != x)).map (Entity.relabel σ) := by
    rw [activeOf_project, List.filter_map]
    congr 1
    refine List.filter_congr fun e _ => ?_
    simp only [Function.comp_apply, Entity.relabel_id, bne, beq_relabel hσ]
  rw [descendants_eq, descendants_eq, hpool, splitChildren_relabel hσ, Walk.below_relabel hσ]

end Store

namespace Forest

/-- A lookup among renamed derived places finds the place of the renamed unit. -/
theorem lookup_relabel (hσ : Function.Injective σ) (derived : List (Ident × String × Int))
    (p : Ident) : (derived.map fun d => (σ d.1, d.2)).lookup (σ p) = derived.lookup p := by
  induction derived with
  | nil => rfl
  | cons d ds ih =>
    obtain ⟨i, v⟩ := d
    simp only [List.map_cons, List.lookup_cons, beq_relabel hσ, ih]

/-- Planning the rows of renamed descendants plans the renamed rows. -/
theorem planRows_relabel (hσ : Function.Injective σ) (st : Settings) (ds : List Entity) :
    ∀ (derived : List (Ident × String × Int)) (acc : List Placement),
      planRows st (ds.map (Entity.relabel σ)) (derived.map fun d => (σ d.1, d.2))
          (acc.map (Placement.relabel σ)) =
        relabelResult σ (List.map (Placement.relabel σ)) (planRows st ds derived acc) := by
  induction ds with
  | nil => intro derived acc; simp [planRows, List.map_reverse]
  | cons n rest ih =>
    intro derived acc
    have hlook : (n.parent.map σ).bind (fun p => (derived.map fun d => (σ d.1, d.2)).lookup p) =
        n.parent.bind (fun p => derived.lookup p) := by
      cases n.parent <;> simp [lookup_relabel hσ]
    simp only [List.map_cons, planRows, Entity.relabel_parent, hlook]
    cases n.parent.bind (fun p => derived.lookup p) with
    | none => rfl
    | some pv =>
      obtain ⟨pp, pl⟩ := pv
      simp only [Entity.relabel_name]
      unfold Settings.checkDepth
      by_cases hdeep : (st.childOf pp pl n.name).2 > st.maxDepth
      · simp [hdeep, Fault.relabel]
      · simp only [hdeep, if_false, Entity.relabel_path, Entity.relabel_level, Entity.relabel_id,
          Entity.relabel_version]
        -- the row of the renamed unit, if any, is the renamed row
        by_cases hc : ((st.childOf pp pl n.name).1 != n.path ||
            (st.childOf pp pl n.name).2 != n.level) = true
        · simp only [hc, if_true]
          exact ih ((n.id, st.childOf pp pl n.name) :: derived)
            (⟨n.id, n.version, (st.childOf pp pl n.name).1, (st.childOf pp pl n.name).2⟩ :: acc)
        · simp only [hc, Bool.false_eq_true, if_false]
          exact ih ((n.id, st.childOf pp pl n.name) :: derived) acc

variable {t : Ident} {f : Forest}

/-- The cascade planned on the projection for a unit of `t` is the renamed cascade. -/
theorem planCascade_project (hσ : Function.Injective σ) {head : Entity} (ht : head.tenant = t)
    (path : String) (level : Int) :
    (f.project σ t).planCascade (head.relabel σ) path level =
      relabelResult σ (List.map (Placement.relabel σ)) (f.planCascade head path level) := by
  unfold planCascade
  rw [settings_project, store_project, Entity.relabel_id, Entity.relabel_tenant, ht,
    Store.descendants_project hσ, ← ht]
  exact planRows_relabel hσ _ _ [(head.id, path, level)] []

end Forest

namespace Walk

variable {t start : Ident} {limit : Nat}

/-- A step of the climb visits an active unit of the tenant not visited before, so fewer of
them are left unvisited. -/
theorem unvisited_lt {s : Store} {current : Ident} {visited : List Ident} {n : Entity}
    (hn : s.active? current t = some n) (hfresh : visited.contains current = false) :
    ((s.activeOf t).filter fun e => !(current :: visited).contains e.id).length <
      ((s.activeOf t).filter fun e => !visited.contains e.id).length := by
  obtain ⟨hmem, hid, hten, hact⟩ := Store.mem_of_active? hn
  have hnot : current ∉ visited := by simpa using hfresh
  have hsplit : ((s.activeOf t).filter fun e => !(current :: visited).contains e.id) =
      ((s.activeOf t).filter fun e => !visited.contains e.id).filter fun e => e.id != current := by
    rw [List.filter_filter]
    refine List.filter_congr fun e _ => ?_
    simp only [List.contains_cons, Bool.not_or, bne]
  rw [hsplit, List.length_filter_lt_length_iff_exists]
  refine ⟨n, ?_, by simp [hid]⟩
  simp [Store.mem_activeOf, hmem, Entity.activeIn, hten, hact, hid, hnot]

/-- Fuel beyond the number of active units of the tenant not yet visited does not change
what the climb returns. -/
theorem climb_fuel {s : Store} : ∀ {fuel₁ fuel₂ : Nat} {visited : List Ident}
    {chain : List Entity} {current : Ident},
    ((s.activeOf t).filter fun e => !visited.contains e.id).length < fuel₁ →
    ((s.activeOf t).filter fun e => !visited.contains e.id).length < fuel₂ →
    climb s t start limit fuel₁ visited chain current =
      climb s t start limit fuel₂ visited chain current := by
  intro fuel₁
  induction fuel₁ with
  | zero => intro _ _ _ _ h₁ _; omega
  | succ k ih =>
    intro fuel₂ visited chain current h₁ h₂
    obtain ⟨j, rfl⟩ : ∃ j, fuel₂ = j + 1 := ⟨fuel₂ - 1, by omega⟩
    simp only [climb]
    split
    · rfl
    · rename_i hcheck
      split
      · rfl
      · rename_i n hn
        split
        · rfl
        · -- the visited unit is an active unit of the tenant not visited before
          have hfresh : visited.contains current = false := by simp_all
          have hlt := unvisited_lt hn hfresh
          exact ih (by omega) (by omega)

/-- The climb on the projection from `σ x` is the climb on the store from `x`, renamed. -/
theorem climb_project (hσ : Function.Injective σ) {s : Store} (hk : s.Keyed) (fuel : Nat) :
    ∀ (visited : List Ident) (chain : List Entity) (current : Ident),
      climb (s.project σ t) t (σ start) limit fuel (visited.map σ) (chain.map (Entity.relabel σ))
          (σ current) =
        relabelResult σ (List.map (Entity.relabel σ)) (climb s t start limit fuel visited chain current) := by
  induction fuel with
  | zero => intro _ _ _; rfl
  | succ fuel ih =>
    intro visited chain current
    simp only [climb, contains_map hσ, List.length_map, Store.active?_project hσ hk]
    split
    · rfl
    · cases s.active? current t with
      | none => simp only [Option.map_none, List.isEmpty_map]; split <;> rfl
      | some n =>
        simp only [Option.map_some, Entity.relabel_parent]
        cases n.parent with
        | none => simp [List.map_reverse]
        | some p =>
          simp only [Option.map_some]
          rw [← List.map_cons, ← List.map_cons, ih]

end Walk

namespace Store

variable {t : Ident} {s : Store}

/-- The ancestors of `σ x` in the projection are those of `x` in the store, renamed. -/
theorem ancestry_project (hσ : Function.Injective σ) (hk : s.Keyed) (maxDepth : Int) (x : Ident) :
    (s.project σ t).ancestry maxDepth (σ x) t =
      relabelResult σ (List.map (Entity.relabel σ)) (s.ancestry maxDepth x t) := by
  unfold ancestry
  -- the projection has fewer units, but enough fuel for the units of `t`
  have hactive : ((s.activeOf t).filter fun e => !([] : List Ident).contains e.id).length <
      s.entities.length + 1 := by
    simp only [List.contains_nil, Bool.not_false, List.filter_true]
    exact Nat.lt_succ_of_le (List.filter_sublist.length_le)
  have hprojected : (((s.project σ t).activeOf t).filter
      fun e => !([] : List Ident).contains e.id).length < (s.project σ t).entities.length + 1 := by
    simp only [List.contains_nil, Bool.not_false, List.filter_true]
    exact Nat.lt_succ_of_le (List.filter_sublist.length_le)
  have hsame : (((s.project σ t).activeOf t).filter
      fun e => !([] : List Ident).contains e.id).length < s.entities.length + 1 := by
    simpa [activeOf_project] using hactive
  rw [Walk.climb_fuel hprojected hsame]
  exact Walk.climb_project hσ hk _ [] [] x

theorem wouldCycle_project (hσ : Function.Injective σ) (hk : s.Keyed) (maxDepth : Int)
    (moving candidate : Ident) :
    (s.project σ t).wouldCycle maxDepth (σ moving) (σ candidate) t =
      relabelResult σ id (s.wouldCycle maxDepth moving candidate t) := by
  unfold wouldCycle
  by_cases h : moving = candidate
  · simp [h]
  · have hne : (σ moving == σ candidate) = false := by simp [hσ.eq_iff, h]
    simp only [hne, show (moving == candidate) = false by simp [h], Bool.false_eq_true,
      if_false, ancestry_project hσ hk]
    cases s.ancestry maxDepth candidate t with
    | error e => rfl
    | ok chain => simp [List.any_map, Function.comp_def, beq_relabel hσ]

end Store

/-! ## §2 Orders -/

variable (σ) in
/-- `σ` keeps the order of the identifiers of the units of `l`. -/
def KeepsOrder (l : List Entity) : Prop :=
  ∀ a ∈ l, ∀ b ∈ l, compare (σ a.id).bits (σ b.id).bits = compare a.id.bits b.id.bits

theorem KeepsOrder.mono {l l' : List Entity} (h : KeepsOrder σ l) (hsub : ∀ a ∈ l', a ∈ l) :
    KeepsOrder σ l' :=
  fun a ha b hb => h a (hsub a ha) b (hsub b hb)

namespace Order

/-- Sorting renamed units by a comparison the renaming does not change sorts them as
before. -/
theorem sortWith_relabel {cmp : Entity → Entity → Ordering} {l : List Entity}
    (h : ∀ a ∈ l, ∀ b ∈ l, cmp (a.relabel σ) (b.relabel σ) = cmp a b) :
    sortWith cmp (l.map (Entity.relabel σ)) = (sortWith cmp l).map (Entity.relabel σ) := by
  unfold sortWith
  exact (List.map_mergeSort fun a ha b hb => by rw [h a ha b hb]).symm

theorem bySibling_relabel {l : List Entity} (h : KeepsOrder σ l) :
    ∀ a ∈ l, ∀ b ∈ l, bySibling (a.relabel σ) (b.relabel σ) = bySibling a b := by
  intro a ha b hb
  simp only [bySibling, Entity.relabel_name, Entity.relabel_id, h a ha b hb]

theorem byPath_relabel (sep : String) {l : List Entity} (h : KeepsOrder σ l) :
    ∀ a ∈ l, ∀ b ∈ l, byPath sep (a.relabel σ) (b.relabel σ) = byPath sep a b := by
  intro a ha b hb
  simp only [byPath, Entity.relabel_path, Entity.relabel_id, h a ha b hb]

/-- The depth-first walk over renamed units is the renamed walk. -/
theorem descend_relabel (hσ : Function.Injective σ) (pool stack : List Entity)
    (hord : KeepsOrder σ (stack ++ pool)) :
    descend (pool.map (Entity.relabel σ)) (stack.map (Entity.relabel σ)) =
      ((descend pool stack).1.map (Entity.relabel σ), (descend pool stack).2.map (Entity.relabel σ)) := by
  induction pool, stack using descend.induct with
  | case1 pool => simp [descend]
  | case2 pool x rest _ seen left h ih =>
    -- the children are taken from the pool, so the order is kept on what the walk goes on with
    have hsub : ∀ a ∈ sortWith bySibling (Store.splitChildren x.id pool).1 ++ rest ++
        (Store.splitChildren x.id pool).2, a ∈ x :: rest ++ pool := by
      intro a ha
      rcases List.mem_append.1 ha with ha | ha
      · rcases List.mem_append.1 ha with ha | ha
        · exact List.mem_append_right _
            (Store.mem_splitChildren_fst.1 ((List.mergeSort_perm _ _).subset ha)).1
        · exact List.mem_append_left _ (List.mem_cons_of_mem _ ha)
      · exact List.mem_append_right _ (Store.mem_splitChildren_snd.1 ha).1
    have hchildren : KeepsOrder σ (Store.splitChildren x.id pool).1 :=
      hord.mono fun a ha => List.mem_append_right _ (Store.mem_splitChildren_fst.1 ha).1
    have hsorted := sortWith_relabel (bySibling_relabel hchildren)
    rw [List.map_cons, descend.eq_2, descend.eq_2, Entity.relabel_id, Store.splitChildren_relabel hσ,
      hsorted, ← List.map_append, ih (hord.mono hsub), h]
    rfl

/-- Whether a renamed unit's parent is among renamed identifiers. -/
theorem linked_relabel (hσ : Function.Injective σ) (ids : List Ident) (e : Entity) :
    linked (ids.map σ) (e.relabel σ) = linked ids e := by
  unfold linked
  cases hp : e.parent with
  | none => simp only [Entity.relabel_parent, hp, Option.map_none]
  | some p =>
    simp only [Entity.relabel_parent, hp, Option.map_some]
    exact contains_map hσ ids p

/-- The hierarchy order of renamed units is the renamed hierarchy order. -/
theorem hierarchy_relabel (hσ : Function.Injective σ) (sep : String) {nodes : List Entity}
    (hord : KeepsOrder σ nodes) :
    hierarchy sep (nodes.map (Entity.relabel σ)) = (hierarchy sep nodes).map (Entity.relabel σ) := by
  have hids : (nodes.map (Entity.relabel σ)).map Entity.id = (nodes.map Entity.id).map σ := by
    simp [List.map_map, Function.comp_def]
  set ids := nodes.map Entity.id
  have hroots : (nodes.map (Entity.relabel σ)).filter Entity.isRoot =
      (nodes.filter Entity.isRoot).map (Entity.relabel σ) := by
    simp [List.filter_map, Function.comp_def]
  have hpool : (nodes.map (Entity.relabel σ)).filter
        (fun e => !e.isRoot && linked (ids.map σ) e) =
      (nodes.filter fun e => !e.isRoot && linked ids e).map (Entity.relabel σ) := by
    simp [List.filter_map, Function.comp_def, linked_relabel hσ]
  have hstranded : (nodes.map (Entity.relabel σ)).filter (fun e => !linked (ids.map σ) e) =
      (nodes.filter fun e => !linked ids e).map (Entity.relabel σ) := by
    simp [List.filter_map, Function.comp_def, linked_relabel hσ]
  have hrootsOrd : KeepsOrder σ (nodes.filter Entity.isRoot) :=
    hord.mono fun a ha => (List.mem_filter.1 ha).1
  have hwalkOrd : KeepsOrder σ (sortWith bySibling (nodes.filter Entity.isRoot) ++
      nodes.filter fun e => !e.isRoot && linked ids e) := by
    refine hord.mono fun a ha => ?_
    rcases List.mem_append.1 ha with ha | ha
    · exact (List.mem_filter.1 ((List.mergeSort_perm _ _).subset ha)).1
    · exact (List.mem_filter.1 ha).1
  simp only [hierarchy, hids, hroots, hpool, hstranded, sortWith_relabel (bySibling_relabel hrootsOrd),
    descend_relabel hσ _ _ hwalkOrd, List.map_append]
  congr 1
  -- what the walk leaves is part of its pool, so the order is kept on it too
  have hleft : ∀ a ∈ (nodes.filter fun e => !linked ids e) ++
      (descend (nodes.filter fun e => !e.isRoot && linked ids e)
        (sortWith bySibling (nodes.filter Entity.isRoot))).2, a ∈ nodes := by
    intro a ha
    rcases List.mem_append.1 ha with ha | ha
    · exact (List.mem_filter.1 ha).1
    · have hperm := descend_perm (nodes.filter fun e => !e.isRoot && linked ids e)
        (sortWith bySibling (nodes.filter Entity.isRoot))
      have := hperm.subset (List.mem_append_right _ ha)
      rcases List.mem_append.1 this with h' | h'
      · exact (List.mem_filter.1 ((List.mergeSort_perm _ _).subset h')).1
      · exact (List.mem_filter.1 h').1
  rw [← List.map_append, sortWith_relabel (byPath_relabel sep (hord.mono hleft))]

end Order

/-- A filter with its parent renamed admits the renamed units it admitted. -/
theorem Filter.admits_relabel (hσ : Function.Injective σ) (flt : Filter) (e : Entity) :
    (flt.relabel σ).admits (e.relabel σ) = flt.admits e := by
  have hparent : ∀ p : Ident, (e.parent.map σ == some (σ p)) = (e.parent == some p) :=
    fun p => beq_map_map hσ e.parent (some p)
  rcases flt with ⟨kind, parent, rootsOnly, nameContains, maxLevel⟩
  cases parent with
  | none =>
    simp only [admits, Filter.relabel, Option.map_none, Entity.isRoot_relabel]
    rfl
  | some p =>
    simp only [admits, Filter.relabel, Option.map_some, Entity.relabel_parent, hparent]
    rfl

namespace Store

variable {t : Ident} {s : Store}

theorem hierarchy_project (hσ : Function.Injective σ) (sep : String)
    (hord : KeepsOrder σ (s.activeOf t)) :
    (s.project σ t).hierarchy sep t = (s.hierarchy sep t).map (Entity.relabel σ) := by
  unfold hierarchy
  rw [activeOf_project, Order.hierarchy_relabel hσ sep hord]

theorem list_project (hσ : Function.Injective σ) (sep : String) (hord : KeepsOrder σ (s.activeOf t))
    (flt : Filter) (r : PageRequest) :
    (s.project σ t).list sep t (flt.relabel σ) r = (s.list sep t flt r).map (Entity.relabel σ) := by
  have hmatch : (s.project σ t).matching sep t (flt.relabel σ) =
      (s.matching sep t flt).map (Entity.relabel σ) := by
    unfold matching
    rw [activeOf_project, List.filter_map]
    simp only [Function.comp_def, Filter.admits_relabel hσ]
    exact Order.sortWith_relabel
      (Order.byPath_relabel sep (hord.mono fun a ha => (List.mem_filter.1 ha).1))
  simp only [list, hmatch, PageRequest.window, List.length_map, Page.build, Page.map,
    List.map_take, List.map_drop]

end Store

/-! ## §3 Views -/

namespace Outline

theorem relabelAll_eq_map (os : List Outline) :
    Outline.relabelAll σ os = os.map (Outline.relabel σ) := by
  induction os with
  | nil => rfl
  | cons o os ih => simp [Outline.relabelAll, ih]

theorem unit_relabel (o : Outline) : (o.relabel σ).unit = o.unit.relabel σ := by
  cases o
  rfl

theorem adopt_relabel (a b : Outline) : (a.relabel σ).adopt (b.relabel σ) = (a.adopt b).relabel σ := by
  cases a
  simp [adopt, Outline.relabel, relabelAll_eq_map]

theorem closeUntil_relabel (hσ : Function.Injective σ) (parent : Option Ident)
    (openUnits roots : List Outline) :
    closeUntil (parent.map σ) (openUnits.map (Outline.relabel σ)) (roots.map (Outline.relabel σ)) =
      ((closeUntil parent openUnits roots).1.map (Outline.relabel σ),
        (closeUntil parent openUnits roots).2.map (Outline.relabel σ)) := by
  have hsame : ∀ o : Outline, (some (o.relabel σ).unit.id == parent.map σ) = (some o.unit.id == parent) := by
    intro o
    rw [unit_relabel, Entity.relabel_id]
    exact beq_map_map hσ (some o.unit.id) parent
  induction openUnits, roots using closeUntil.induct parent with
  | case1 roots => simp [closeUntil]
  | case2 top roots h => simp [closeUntil, hsame, h]
  | case3 top roots h => simp [closeUntil, hsame, h]
  | case4 top below rest roots h => simp [closeUntil, hsame, h]
  | case5 top below rest roots h ih =>
    rw [List.map_cons, List.map_cons, closeUntil, hsame, if_neg h, closeUntil, if_neg h,
      adopt_relabel, ← List.map_cons, ih]

theorem closeAll_relabel (openUnits roots : List Outline) :
    closeAll (openUnits.map (Outline.relabel σ)) (roots.map (Outline.relabel σ)) =
      (closeAll openUnits roots).map (Outline.relabel σ) := by
  induction openUnits, roots using closeAll.induct with
  | case1 roots => simp [closeAll]
  | case2 top roots => simp [closeAll]
  | case3 top below rest roots ih =>
    rw [List.map_cons, List.map_cons, closeAll, closeAll, adopt_relabel, ← List.map_cons, ih]

theorem build_relabel (hσ : Function.Injective σ) (es : List Entity) :
    ∀ openUnits roots : List Outline,
      build (openUnits.map (Outline.relabel σ)) (roots.map (Outline.relabel σ))
          (es.map (Entity.relabel σ)) =
        (build openUnits roots es).map (Outline.relabel σ) := by
  induction es with
  | nil => intro openUnits roots; simp [build, closeAll_relabel]
  | cons e es ih =>
    intro openUnits roots
    simp only [List.map_cons, build, Entity.relabel_parent, closeUntil_relabel hσ]
    rw [show Outline.node (e.relabel σ) [] = (Outline.node e []).relabel σ from rfl, ← List.map_cons, ih]

end Outline

namespace Integrity

/-- The names climb among renamed units, from a renamed parent, climbs as before. -/
theorem names_relabel (hσ : Function.Injective σ) (units : List Entity) (fuel : Nat) :
    ∀ (seen : List Ident) (acc : List String) (p : Option Ident),
      names (units.map (Entity.relabel σ)) fuel (seen.map σ) acc (p.map σ) =
        names units fuel seen acc p := by
  induction fuel with
  | zero => intro seen acc p; cases p <;> rfl
  | succ fuel ih =>
    intro seen acc p
    cases p with
    | none => rfl
    | some x =>
      have hfind : (units.map (Entity.relabel σ)).find? (fun e => e.id == σ x) =
          (units.find? fun e => e.id == x).map (Entity.relabel σ) := by
        rw [List.find?_map]
        congr 1
        exact find?_congr fun e _ => by simp [hσ.eq_iff]
      simp only [Option.map_some, names, contains_map hσ, hfind]
      split
      · rfl
      · cases units.find? fun e => e.id == x with
        | none => rfl
        | some a =>
          simp only [Option.map_some, Entity.relabel_name, Entity.relabel_parent]
          rw [← List.map_cons, ih]

/-- The names climb fails only on a cycle. -/
theorem names_error {units : List Entity} :
    ∀ {fuel : Nat} {seen : List Ident} {acc : List String} {p : Option Ident} {e : Problem},
      names units fuel seen acc p = .error e → e = .cycle := by
  intro fuel
  induction fuel with
  | zero =>
    intro seen acc p e h
    cases p with
    | none => cases h
    | some x =>
      simp only [names, Except.error.injEq] at h
      exact h.symm
  | succ fuel ih =>
    intro seen acc p e h
    cases p with
    | none => cases h
    | some x =>
      simp only [names] at h
      split at h
      · simp only [Except.error.injEq] at h
        exact h.symm
      · split at h
        · cases h
        · exact ih h

theorem check_relabel (hσ : Function.Injective σ) (sep : String) (units : List Entity) (n : Entity) :
    check sep (units.map (Entity.relabel σ)) (n.relabel σ) = (check sep units n).map (Problem.relabel σ) := by
  have hany : ∀ p, (units.map (Entity.relabel σ)).any (fun e => e.id == σ p) =
      units.any (fun e => e.id == p) := by
    intro p
    simp [List.any_map, Function.comp_def, beq_relabel hσ]
  have hnames : names (units.map (Entity.relabel σ)) ((units.map (Entity.relabel σ)).length + 1)
      [(n.relabel σ).id] [(n.relabel σ).name] (n.relabel σ).parent =
        names units (units.length + 1) [n.id] [n.name] n.parent := by
    rw [List.length_map, Entity.relabel_id, Entity.relabel_name, Entity.relabel_parent,
      show [σ n.id] = [n.id].map σ from rfl, names_relabel hσ]
  unfold check
  rw [hnames]
  -- the climb's problems name no unit; an orphan's parent is renamed
  cases hR : names units (units.length + 1) [n.id] [n.name] n.parent with
  | error p =>
    obtain rfl := names_error hR
    cases hp : n.parent with
    | none => simp [hp, Problem.relabel]
    | some p =>
      simp only [Entity.relabel_parent, hp, Option.map_some, hany]
      split_ifs <;> rfl
  | ok r =>
    cases hp : n.parent <;> cases r <;> simp [hp, hany] <;> split_ifs <;> rfl

end Integrity

namespace Forest

variable {t : Ident} {f : Forest}

theorem statsOf_relabel (us : List Entity) : statsOf (us.map (Entity.relabel σ)) = statsOf us := by
  simp [statsOf, List.any_map, List.filter_map, Function.comp_def, List.foldl_map, List.foldr_map]

theorem get_project (hσ : Function.Injective σ) (hk : f.store.Keyed) (x : Ident) :
    (f.project σ t).get t (σ x) = relabelResult σ (Entity.relabel σ) (f.get t x) :=
  Store.getActive_project hσ hk x

theorem children_project (hσ : Function.Injective σ) (hk : f.store.Keyed) (x : Ident) :
    (f.project σ t).children t (σ x) =
      relabelResult σ (List.map (Entity.relabel σ)) (f.children t x) := by
  unfold children
  rw [store_project, Store.getActive_project hσ hk, Store.childrenOf_project hσ]
  cases f.store.getActive x t <;> rfl

theorem list_project (hσ : Function.Injective σ) (hord : KeepsOrder σ (f.store.activeOf t))
    (flt : Filter) (r : PageRequest) :
    (f.project σ t).list t (flt.relabel σ) r =
      relabelResult σ (Page.map (Entity.relabel σ)) (f.list t flt r) := by
  unfold list
  rw [store_project, settings_project, Store.list_project hσ _ hord,
    show (flt.relabel σ).maxLevel = flt.maxLevel from rfl]
  cases flt.maxLevel with
  | none => rfl
  | some m => by_cases hm : m < 0 <;> simp [hm, Fault.relabel]

theorem hierarchy_project (hσ : Function.Injective σ) (hord : KeepsOrder σ (f.store.activeOf t))
    (maxDepth : Option Int) :
    (f.project σ t).hierarchy t maxDepth =
      relabelResult σ (List.map (Entity.relabel σ)) (f.hierarchy t maxDepth) := by
  unfold hierarchy
  rw [store_project, settings_project, Store.hierarchy_project hσ _ hord]
  cases maxDepth with
  | none => rfl
  | some d =>
    by_cases hd : d < 0
    · simp [hd, Fault.relabel]
    · simp only [hd, if_false, relabelResult_ok, List.filter_map]
      rfl

theorem outline_project (hσ : Function.Injective σ) (hord : KeepsOrder σ (f.store.activeOf t))
    (maxDepth : Option Int) :
    (f.project σ t).outline t maxDepth =
      relabelResult σ (Outline.relabelAll σ) (f.outline t maxDepth) := by
  unfold outline
  rw [hierarchy_project hσ hord]
  cases f.hierarchy t maxDepth with
  | error e => rfl
  | ok es =>
    simp only [relabelResult_ok, Except.map, Outline.relabelAll_eq_map]
    exact congrArg Except.ok (Outline.build_relabel hσ es [] [])

theorem ancestors_project (hσ : Function.Injective σ) (hk : f.store.Keyed) (x : Ident) :
    (f.project σ t).ancestors t (σ x) =
      relabelResult σ (List.map (Entity.relabel σ)) (f.ancestors t x) := by
  unfold ancestors
  rw [store_project, settings_project, Store.ancestry_project hσ hk]
  cases f.store.ancestry f.settings.maxDepth x t <;> simp [Except.map, List.map_reverse]

theorem stats_project (hord : KeepsOrder σ (f.store.activeOf t)) (hσ : Function.Injective σ) :
    (f.project σ t).stats t = f.stats t := by
  unfold stats
  rw [store_project, settings_project, Store.hierarchy_project hσ _ hord, statsOf_relabel]

theorem verify_project (hσ : Function.Injective σ) (hord : KeepsOrder σ (f.store.activeOf t)) :
    (f.project σ t).verify t = (f.verify t).map (Issue.relabel σ) := by
  unfold verify
  rw [store_project, settings_project, Store.hierarchy_project hσ _ hord, List.filterMap_map,
    List.map_filterMap]
  refine List.filterMap_congr fun n _ => ?_
  simp only [Function.comp_apply, Integrity.check_relabel hσ, Option.map_map]
  rfl

end Forest

end TenantForest

import TenantForest.Proofs.Shape

/-!
# Reachable forests are well formed

Every forest reachable under settings whose depth bound lies between 0 and the largest
32-bit integer is well formed:

* every active unit stands where its parent link puts it, within the depth bound;
* no unit descends from itself;
* the ancestors of every active unit are found, root first: `level + 1` units whose names,
  joined by the separator, spell the unit's path;
* the integrity report of every tenant is empty.

The first two facts are those of a shaped store (`Forest.Reachable.shaped`). The others
follow from the root path every active unit of a shaped store has: levels fall by one
along it, so its units are distinct and there are `level + 1` of them, and each step adds
one name to the path. The ancestor climb and the names climb both follow that path within
their bounds, and the hierarchy order the report walks is a rearrangement of the active
units of the tenant.

  §1 Root paths in a shaped store.
  §2 The ancestors of an active unit.
  §3 The hierarchy order rearranges the units.
  §4 The integrity report.
  §5 Reachable forests.
-/

namespace TenantForest

/-- Joining names ending in `b` is joining the others, then the separator, then `b`. -/
theorem intercalate_append_singleton (sep b : String) :
    ∀ {l : List String}, l ≠ [] → sep.intercalate (l ++ [b]) = sep.intercalate l ++ sep ++ b
  | [], h => absurd rfl h
  | [a], _ => by simp [String.intercalate_cons_cons]
  | a :: c :: l, _ => by
    rw [List.cons_append, List.cons_append, String.intercalate_cons_cons,
      String.intercalate_cons_cons, ← List.cons_append,
      intercalate_append_singleton sep b (List.cons_ne_nil c l)]
    simp only [String.append_assoc]

namespace Store

variable {st : Settings} {s : Store}

/-! ## §1 Root paths in a shaped store -/

/-- In a shaped store every active unit has a root path of distinct units, `level + 1` of
them, none deeper than the unit, whose names, root first, spell the unit's path. -/
theorem Shaped.exists_rootPath (hs : s.Shaped st) :
    ∀ (n : Nat) {e : Entity}, e.level.toNat = n → e ∈ s.entities → e.isActive = true →
      ∃ c, s.RootPath e.tenant e.id c ∧ (c.length : Int) = e.level + 1 ∧
        st.separator.intercalate (c.map Entity.name).reverse = e.path ∧
        (c.map Entity.id).Nodup ∧ ∀ u ∈ c, u.level ≤ e.level := by
  intro n
  induction n with
  | zero =>
    intro e hn he hea
    have self : s.active? e.id e.tenant = some e :=
      hs.keyed.active?_of_mem he (by simp [Entity.activeIn, hea])
    cases hp : e.parent with
    | none =>
      obtain ⟨hpath, hlevel⟩ := (hs.placed e he hea).root hp
      exact ⟨[e], .root self hp, by simp [hlevel], by simp [hpath], by simp, by simp⟩
    | some p =>
      -- a child sits at level 1 or deeper
      obtain ⟨q, hq, -, hlevel⟩ := (hs.placed e he hea).child hp
      obtain ⟨hqm, -, -, hqa⟩ := mem_of_active? hq
      have := (hs.bounded q hqm hqa).1
      omega
  | succ n ih =>
    intro e hn he hea
    have self : s.active? e.id e.tenant = some e :=
      hs.keyed.active?_of_mem he (by simp [Entity.activeIn, hea])
    cases hp : e.parent with
    | none =>
      obtain ⟨-, hlevel⟩ := (hs.placed e he hea).root hp
      simp [hlevel] at hn
    | some p =>
      obtain ⟨q, hq, hpath, hlevel⟩ := (hs.placed e he hea).child hp
      obtain ⟨hqm, hqid, hqt, hqa⟩ := mem_of_active? hq
      have hqpos := (hs.bounded q hqm hqa).1
      obtain ⟨c, hc, hlen, hnames, hnd, hlow⟩ := ih (by omega) hqm hqa
      rw [hqid, hqt] at hc
      refine ⟨e :: c, .climb self hp hc, by simp [hlen, hlevel], ?_, ?_, ?_⟩
      · -- the parent's path, the separator, then the unit's own name
        have hne : (c.map Entity.name).reverse ≠ [] := by
          simp only [ne_eq, List.reverse_eq_nil_iff, List.map_eq_nil_iff]
          rintro rfl
          simp at hlen
          omega
        rw [List.map_cons, List.reverse_cons, intercalate_append_singleton _ _ hne, hnames,
          hpath]
      · -- the units above sit higher, so none of them is the unit
        refine List.nodup_cons.2 ⟨fun hm => ?_, hnd⟩
        obtain ⟨u, hu, hue⟩ := List.mem_map.1 hm
        have hum := (mem_of_active? (hc.active u hu)).1
        have := hlow u hu
        rw [hs.keyed.eq_of_id_eq hum he hue] at this
        omega
      · intro u hu
        rcases List.mem_cons.1 hu with rfl | hu
        · exact Int.le_refl _
        · have := hlow u hu
          omega

/-- A root path of a shaped store, as `exists_rootPath` gives it, for an active unit of `t`. -/
theorem Shaped.rootPath_of_active (hs : s.Shaped st) {t : Ident} {e : Entity}
    (he : e ∈ s.activeOf t) :
    ∃ c, s.RootPath t e.id c ∧ (c.length : Int) = e.level + 1 ∧
      st.separator.intercalate (c.map Entity.name).reverse = e.path ∧
      (c.map Entity.id).Nodup ∧ ∀ u ∈ c, u.level ≤ e.level := by
  obtain ⟨hm, ht⟩ := mem_activeOf.1 he
  simp only [Entity.activeIn, Bool.and_eq_true, beq_iff_eq] at ht
  obtain ⟨c, hc, rest⟩ := hs.exists_rootPath _ rfl hm ht.2
  rw [ht.1] at hc
  exact ⟨c, hc, rest⟩

/-- Distinct units of a root path are no more than the units of the store. -/
theorem RootPath.length_le {t x : Ident} {c : List Entity} (h : s.RootPath t x c)
    (hnd : (c.map Entity.id).Nodup) : c.length ≤ s.entities.length :=
  ((List.Nodup.of_map Entity.id hnd).subperm fun u hu =>
    (mem_of_active? (h.active u hu)).1).length_le

end Store

/-! ## §2 The ancestors of an active unit -/

/-- The chain limit reads the depth bound modulo the 64-bit word size, and wraps the sum. -/
theorem Walk.chainLimit_eq_mod (d : Int) :
    Walk.chainLimit d = ((d % 2 ^ 64).toNat + 1) % 2 ^ 64 := rfl

/-- Within the bounds, the chain limit is one more than the depth bound. -/
theorem Walk.chainLimit_eq {d : Int} (h0 : 0 ≤ d) (h1 : d < 2 ^ 31 - 1) :
    Walk.chainLimit d = d.toNat + 1 := by
  rw [Walk.chainLimit_eq_mod, Int.emod_eq_of_lt h0 (by omega)]
  omega

namespace Forest

open Store

variable {f : Forest}

/-- In a shaped store under a depth bound between 0 and the largest 32-bit integer, the
ancestors of an active unit are its root path, root first: `level + 1` units whose names,
joined by the separator, spell its path. -/
theorem ancestors_of_shaped (hs : f.store.Shaped f.settings) (hdepth : 0 ≤ f.settings.maxDepth)
    (hword : f.settings.maxDepth < 2 ^ 31 - 1) {t : Ident} {n : Entity}
    (hn : n ∈ f.store.activeOf t) :
    ∃ chain, f.ancestors t n.id = .ok chain ∧ f.store.RootPath t n.id chain.reverse ∧
      (chain.length : Int) = n.level + 1 ∧
      f.settings.separator.intercalate (chain.map Entity.name) = n.path := by
  obtain ⟨c, hc, hlen, hnames, hnd, -⟩ := hs.rootPath_of_active hn
  have hbound := (hs.bounded n (mem_activeOf.1 hn).1
    (by have := (mem_activeOf.1 hn).2; simp [Entity.activeIn] at this; exact this.2)).2
  -- the climb follows the root path: it fits the chain limit and the fuel
  have climbed : Walk.climb f.store t n.id (Walk.chainLimit f.settings.maxDepth)
      (f.store.entities.length + 1) [] [] n.id = .ok ([].reverse ++ c) :=
    Walk.climb_of_rootPath hc hnd (by simp) (by rw [Walk.chainLimit_eq hdepth hword]; simp; omega)
      (by have := hc.length_le hnd; omega)
  refine ⟨c.reverse, ?_, by simpa using hc, by simpa using hlen, by simpa [List.map_reverse]⟩
  simp only [ancestors, ancestry, climbed, List.reverse_nil, List.nil_append, Except.map]

end Forest

/-! ## §3 The hierarchy order rearranges the units -/

namespace Order

/-- The depth-first walk visits or leaves over every unit of its stack and its pool, each
once. -/
theorem descend_perm (pool stack : List Entity) :
    ((descend pool stack).1 ++ (descend pool stack).2).Perm (stack ++ pool) := by
  induction pool, stack using descend.induct with
  | case1 pool => simp [descend]
  | case2 pool x rest _ seen left h ih =>
    rw [h] at ih
    rw [descend.eq_2, h]
    simp only [List.cons_append, List.perm_cons]
    -- the children go to the stack, sorted, and the others stay in the pool
    have regroup : ((sortWith bySibling (Store.splitChildren x.id pool).1 ++ rest) ++
        (Store.splitChildren x.id pool).2).Perm (rest ++ pool) := by
      rw [List.append_assoc]
      refine ((List.mergeSort_perm _ _).append_right _).trans ?_
      exact (List.perm_append_comm_assoc _ _ _).trans
        ((Store.splitChildren_perm x.id pool).append_left rest)
    exact ih.trans regroup

/-- The units no root reaches, the roots, and the units linked below some unit rearrange
the units. -/
theorem partition_perm (nodes : List Entity) :
    (nodes.filter (fun e => !linked (nodes.map Entity.id) e) ++
      (nodes.filter Entity.isRoot ++
        nodes.filter fun e => !e.isRoot && linked (nodes.map Entity.id) e)).Perm nodes := by
  set ids := nodes.map Entity.id
  -- a root is linked, so the linked units are the roots and the linked units below
  have roots : (nodes.filter (linked ids)).filter Entity.isRoot = nodes.filter Entity.isRoot := by
    rw [List.filter_filter]
    refine List.filter_congr fun e _ => ?_
    cases hp : e.parent <;> simp [Entity.isRoot, linked, hp]
  have below : (nodes.filter (linked ids)).filter (fun e => !e.isRoot) =
      nodes.filter fun e => !e.isRoot && linked ids e := by
    rw [List.filter_filter]
  have split := List.filter_append_perm Entity.isRoot (nodes.filter (linked ids))
  rw [roots, below] at split
  exact List.perm_append_comm.trans ((split.append_right _).trans
    (List.filter_append_perm (linked ids) nodes))

/-- The hierarchy order is a rearrangement of the units. -/
theorem hierarchy_perm (sep : String) (nodes : List Entity) :
    (hierarchy sep nodes).Perm nodes := by
  have walk := descend_perm (nodes.filter fun e => !e.isRoot && linked (nodes.map Entity.id) e)
    (sortWith bySibling (nodes.filter Entity.isRoot))
  simp only [hierarchy]
  generalize descend _ _ = r at walk ⊢
  obtain ⟨reached, left⟩ := r
  simp only at walk ⊢
  -- unsort the stranded units, then the roots, and regroup
  refine ((List.mergeSort_perm _ _).append_left reached).trans ?_
  refine (List.perm_append_comm_assoc _ _ _).trans ?_
  refine (walk.append_left _).trans ?_
  refine (((List.mergeSort_perm _ _).append_right _).append_left _).trans ?_
  exact partition_perm nodes

end Order

/-! ## §4 The integrity report -/

namespace Store

variable {st : Settings} {s : Store}

/-- In a list of units with distinct identifiers each unit is found by its identifier. -/
theorem find?_id_of_mem {l : List Entity} (hnd : (l.map Entity.id).Nodup) {u : Entity}
    (hu : u ∈ l) : l.find? (fun e => e.id == u.id) = some u := by
  cases hf : l.find? (fun e => e.id == u.id) with
  | none => exact absurd (List.find?_eq_none.1 hf u hu) (by simp)
  | some a =>
    have hid : a.id = u.id := by simpa using List.find?_some hf
    rw [List.inj_on_of_nodup_map hnd (List.mem_of_find?_eq_some hf) hu hid]

/-- In a keyed store the active units of a tenant have distinct identifiers. -/
theorem Keyed.nodup_activeOf (hk : s.Keyed) (t : Ident) :
    ((s.activeOf t).map Entity.id).Nodup :=
  hk.nodup.sublist (List.filter_sublist.map _)

/-- In a shaped store the integrity check finds nothing wrong with an active unit, among
any rearrangement of the active units of its tenant. -/
theorem Shaped.check_eq_none (hs : s.Shaped st) {t : Ident} {units : List Entity}
    (hperm : units.Perm (s.activeOf t)) {n : Entity} (hn : n ∈ units) :
    Integrity.check st.separator units n = none := by
  have hna : n ∈ s.activeOf t := hperm.subset hn
  have hself : s.active? n.id t = some n :=
    hs.keyed.active?_of_mem (mem_activeOf.1 hna).1 (mem_activeOf.1 hna).2
  have hnd_units : (units.map Entity.id).Nodup :=
    (hperm.map Entity.id).nodup_iff.2 (hs.keyed.nodup_activeOf t)
  have in_units : ∀ u, s.active? u.id t = some u → u ∈ units := fun u hu =>
    hperm.symm.subset (mem_activeOf.2 ⟨(mem_of_active? hu).1, by
      obtain ⟨-, -, ht, ha⟩ := mem_of_active? hu
      simp [Entity.activeIn, ht, ha]⟩)
  obtain ⟨c, hc, hlen, hnames, hnd, -⟩ := hs.rootPath_of_active hna
  -- the root path starts at `n`; a root has nothing above it, a child has its parent's path
  cases hc with
  | root he hroot =>
    rw [hself] at he
    cases he
    simp only [List.map_cons, List.map_nil, List.reverse_cons, List.reverse_nil,
      List.nil_append, String.intercalate_singleton] at hnames
    simp only [List.length_singleton] at hlen
    simp [Integrity.check, hroot, Integrity.names, hnames]
    omega
  | @climb _ p e chain he hp hr =>
    rw [hself] at he
    cases he
    simp only [List.map_cons, List.nodup_cons, List.mem_map, not_exists, not_and] at hnd
    obtain ⟨u, rest, rfl, hu⟩ := hr.head
    have hparent : units.any (fun e => e.id == p) = true := by
      rw [List.any_eq_true]
      exact ⟨u, in_units u (by rw [(mem_of_active? hu).2.1]; exact hu),
        by simp [(mem_of_active? hu).2.1]⟩
    -- the names climb follows the parent's root path
    have fuel : (u :: rest).length ≤ units.length + 1 := by
      have := ((List.Nodup.of_map _ hnd.2).subperm
        fun v hv => in_units v (hr.active v hv)).length_le
      omega
    have climbed : Integrity.names units (units.length + 1) [n.id] [n.name] (some p) =
        .ok (some (((u :: rest).map Entity.name).reverse ++ [n.name])) :=
      Integrity.names_of_rootPath hr
        (fun v hv => find?_id_of_mem hnd_units (in_units v (hr.active v hv)))
        hnd.2 (fun v hv h => hnd.1 v hv (List.mem_singleton.1 h)) fuel
    rw [List.map_cons, List.reverse_cons] at hnames
    simp only [List.length_cons] at hlen
    simp only [Integrity.check, hp, hparent, climbed, hnames, if_true, bne_self_eq_false,
      Bool.false_eq_true, if_false]
    simp only [List.length_append, List.length_reverse, List.length_map, List.length_cons,
      List.length_nil] at hlen ⊢
    simp only [bne_iff_ne, ne_eq, ite_eq_right_iff, reduceCtorEq, imp_false, not_not]
    omega

end Store

namespace Forest

variable {f : Forest}

/-- In a shaped store the integrity report of every tenant is empty. -/
theorem verify_of_shaped (hs : f.store.Shaped f.settings) (t : Ident) : f.verify t = [] := by
  unfold verify
  rw [List.filterMap_eq_nil_iff]
  intro n hn
  have clean : Integrity.check f.settings.separator (f.store.hierarchy f.settings.separator t) n =
      none := hs.check_eq_none (Order.hierarchy_perm _ _) hn
  rw [clean]
  rfl

/-! ## §5 Reachable forests -/

/-- Every forest reachable under settings whose depth bound lies between 0 and the largest
32-bit integer is well formed: every active unit stands where its parent link puts it (a
root at level 0 with its name for path, a child one level below an active unit of its
tenant, with that unit's path, the separator and its own name for path), within the depth
bound; no unit descends from itself; the ancestors of every active unit are its root path,
root first, of `level + 1` units whose names joined by the separator spell its path; and
the integrity report of every tenant is empty. -/
theorem reachable_forest_well_formed {st : Settings} (hdepth : 0 ≤ st.maxDepth)
    (hword : st.maxDepth < 2 ^ 31 - 1) (hf : Reachable st f) :
    (∀ n ∈ f.store.entities, n.isActive = true →
      (n.parent = none → n.path = n.name ∧ n.level = 0) ∧
      (∀ p, n.parent = some p → ∃ q, f.store.active? p n.tenant = some q ∧
        n.path = q.path ++ st.separator ++ n.name ∧ n.level = q.level + 1) ∧
      0 ≤ n.level ∧ n.level ≤ st.maxDepth) ∧
    (∀ t x, ¬ f.store.Descends t x x) ∧
    (∀ t, ∀ n ∈ f.store.activeOf t, ∃ chain, f.ancestors t n.id = .ok chain ∧
      f.store.RootPath t n.id chain.reverse ∧ (chain.length : Int) = n.level + 1 ∧
      st.separator.intercalate (chain.map Entity.name) = n.path) ∧
    ∀ t, f.verify t = [] := by
  have hs : f.store.Shaped st := hf.shaped
  have hst : f.settings = st := hf.settings_eq
  subst hst
  refine ⟨fun n hn hna => ?_, fun _ _ => hs.not_descends_self,
    fun _ _ hn => ancestors_of_shaped hs hdepth hword hn, verify_of_shaped hs⟩
  have hplaced := hs.placed n hn hna
  exact ⟨hplaced.root, fun _ hp => hplaced.child hp, hs.bounded n hn hna⟩

/-- One root created in an empty forest under the default settings. -/
def acmeRootForest : Forest :=
  (Forest.empty {}).after { tenant := Ident.ofNat 7, request := .create { name := "Acme" } }

/-- The forest with one root is reachable under the default settings, whose depth bound is
within range, and its integrity report is empty. -/
theorem acme_root_forest_well_formed :
    (0 : Int) ≤ ({} : Settings).maxDepth ∧ ({} : Settings).maxDepth < 2 ^ 31 - 1 ∧
      Reachable {} acmeRootForest ∧ ∀ t, acmeRootForest.verify t = [] :=
  ⟨by decide, by decide, .after _ .empty,
    (reachable_forest_well_formed (by decide) (by decide) (.after _ .empty)).2.2.2⟩

end Forest

end TenantForest

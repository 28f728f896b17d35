import TenantForest.Proofs.Cascade
import TenantForest.Proofs.DescendantOrder
import TenantForest.Proofs.IntegrityReport

/-!
# A cascade plan read against derived values

A cascade plan walks the descendants of a head and keeps the values it derives, head first: the
head's new path and level, then for each descendant the path and level `Settings.childOf`
derives from its parent's value and its own name. Here the plan is read against the values
alone, with no walk and no table of values in sight: `Forest.Derives` says that a valuation of
identifiers gives the head its new value and every descendant the value derived from its
parent's.

On every store whose identifiers are distinct, however corrupt its parent links, such a
valuation exists, and for any of them the plan

* is never refused because a descendant came before its parent: the walk yields every unit
  after its parent, so the parent's value is always known;
* is refused for the first descendant, in walk order, whose derived level lies beyond the
  maximum depth, as too deep, and is refused only then;
* otherwise returns, in walk order, one row for each descendant whose derived path or level
  differs from its stored one, with the derived values and the descendant's stored version.

The valuation enters only through `planRows_eq`, an induction over the walk in which the values
the plan has derived so far agree with the valuation on every identifier they know.

Main statement: `planCascade_follows_derivation`.

Levels are integers without bound (`Settings.childOf`). When the head is within the maximum
depth, the plan derives no level beyond one past it (`planCascade_tooDeep`). So for a maximum
depth below `2 ^ 31 - 1`, the plan computes the same values as it would with 32-bit levels.

  §1 Derived values.
  §2 The plan.
-/

namespace TenantForest

namespace Forest

open Store

variable {st : Settings}

/-! ## §1 Derived values -/

/-- `val` values the head `x` at `v` and derives every unit of `ds` from its parent's value
and its own name. -/
def Derives (st : Settings) (x : Ident) (v : String × Int) (ds : List Entity)
    (val : Ident → String × Int) : Prop :=
  val x = v ∧ ∀ n ∈ ds, ∀ p, n.parent = some p → val n.id = st.childOf (val p).1 (val p).2 n.name

/-- The rows a plan writes under the valuation `val`: for each unit of `ds`, in order, whose
value differs from its stored path and level, its value at its stored version. -/
def changedRows (val : Ident → String × Int) (ds : List Entity) : List Placement :=
  ds.filterMap fun n =>
    if val n.id = (n.path, n.level) then none
    else some { id := n.id, expected := n.version, path := (val n.id).1, level := (val n.id).2 }

/-- Units listed parents first from `anchor`, with distinct identifiers none of which is in
`anchor`, can be valued from any values of `anchor`: each unit from its parent's value. -/
theorem exists_derived {anchor : List Ident} {ns : List Entity} (hp : ParentsFirst anchor ns)
    (hnd : (ns.map Entity.id).Nodup) (hfresh : ∀ n ∈ ns, n.id ∉ anchor)
    (val₀ : Ident → String × Int) :
    ∃ val : Ident → String × Int, (∀ k ∈ anchor, val k = val₀ k) ∧
      ∀ n ∈ ns, ∀ p, n.parent = some p → val n.id = st.childOf (val p).1 (val p).2 n.name := by
  induction hp generalizing val₀ with
  | nil => exact ⟨val₀, fun _ _ => rfl, fun _ h => by cases h⟩
  | @cons anchor e l p hpar hpmem _ ih =>
    simp only [List.map_cons, List.nodup_cons, List.mem_map, not_exists, not_and] at hnd
    have he : e.id ∉ anchor := hfresh e List.mem_cons_self
    -- value `e` from its parent, then the rest knowing `e`
    let val₁ : Ident → String × Int := fun k =>
      if k = e.id then st.childOf (val₀ p).1 (val₀ p).2 e.name else val₀ k
    obtain ⟨val, hagree, hderive⟩ := ih hnd.2 (fun n hn hmem => by
      rcases List.mem_cons.1 hmem with h | h
      · exact hnd.1 n hn h
      · exact hfresh n (List.mem_cons_of_mem _ hn) h) val₁
    have hkeep : ∀ k ∈ anchor, val k = val₀ k := fun k hk => by
      rw [hagree k (List.mem_cons_of_mem _ hk)]
      simp only [val₁, if_neg (fun h : k = e.id => he (h ▸ hk))]
    refine ⟨val, hkeep, fun n hn q hq => ?_⟩
    rcases List.mem_cons.1 hn with rfl | hn
    · obtain rfl : q = p := Option.some.inj (hq.symm.trans hpar)
      rw [hagree n.id List.mem_cons_self, hkeep q hpmem]
      simp [val₁]
    · exact hderive n hn q hq

/-! ## §2 The plan -/

/-- **The plan, by induction over the walk.** Over units listed parents first from the values
known at the start, and against a valuation that agrees with every known value and derives
every unit from its parent's, a plan is refused for the first unit valued beyond the maximum
depth, as too deep with that unit's level, and otherwise writes the changed rows in order after
the rows already collected. -/
theorem planRows_eq {ns : List Entity} {derived : List (Ident × String × Int)}
    {acc : List Placement} {val : Ident → String × Int}
    (hp : ParentsFirst (derived.map Prod.fst) ns)
    (hknown : ∀ k ∈ derived.map Prod.fst, derived.lookup k = some (val k))
    (hval : ∀ n ∈ ns, ∀ p, n.parent = some p → val n.id = st.childOf (val p).1 (val p).2 n.name) :
    planRows st ns derived acc =
      match ns.find? (fun n => decide (st.maxDepth < (val n.id).2)) with
      | some n => .error (.tooDeep (val n.id).2 st.maxDepth)
      | none => .ok (acc.reverse ++ changedRows val ns) := by
  induction ns generalizing derived acc with
  | nil => simp [planRows, changedRows]
  | cons n ns ih =>
    cases hp with
    | @cons _ _ _ p hpar hpmem hrest =>
    -- the parent's value is known, and `n`'s derived value is its value under `val`
    have hparent : derived.lookup p = some (val p) := hknown p hpmem
    have hn : st.childOf (val p).1 (val p).2 n.name = val n.id :=
      (hval n List.mem_cons_self p hpar).symm
    simp only [planRows, hpar, Option.bind_some, hparent, hn, List.find?_cons]
    by_cases hdeep : st.maxDepth < (val n.id).2
    · simp [Settings.checkDepth, hdeep]
    · have hcheck : st.checkDepth (val n.id).2 = .ok () := by simp [Settings.checkDepth, hdeep]
      simp only [hcheck, hdeep, decide_false]
      -- the rest is planned knowing `n`'s value too
      have hknown' : ∀ k ∈ ((n.id, val n.id) :: derived).map Prod.fst,
          ((n.id, val n.id) :: derived).lookup k = some (val k) := by
        intro k hk
        by_cases hkn : k = n.id
        · subst hkn
          simp [List.lookup]
        · rw [lookup_cons_of_ne hkn]
          exact hknown k (by simpa [hkn] using hk)
      rw [ih (by simpa using hrest) hknown' fun m hm => hval m (List.mem_cons_of_mem _ hm)]
      cases ns.find? (fun n => decide (st.maxDepth < (val n.id).2)) with
      | some m => rfl
      | none =>
        -- the row of `n`, if its value changed, comes before the rows of the rest
        simp only [Except.ok.injEq]
        by_cases hsame : val n.id = (n.path, n.level)
        · simp [changedRows, hsame]
        · have hmoved : ((val n.id).1 != n.path || (val n.id).2 != n.level) = true := by
            simp only [Bool.or_eq_true, bne_iff_ne, ne_eq]
            by_contra hboth
            simp only [not_or, Decidable.not_not] at hboth
            exact hsame (Prod.ext hboth.1 hboth.2)
          simp [changedRows, hsame, hmoved]

/-- **A cascade plan follows the derived values.** On a store whose identifiers are distinct,
however corrupt its parent links, the descendants of any head can be valued from the head's new
path and level, each from its parent's value and its own name. Against any such valuation, the
plan for the head is never refused for a descendant reached before its parent; it is refused
as too deep, a validation fault, exactly when some descendant's derived level lies beyond the
maximum depth; and otherwise it returns, in walk order, one row for each descendant whose
derived path or level differs from its stored ones, carrying the derived values and the
descendant's stored version. -/
theorem planCascade_follows_derivation (f : Forest) (hnd : (f.store.entities.map Entity.id).Nodup)
    (head : Entity) (path : String) (level : Int) :
    (∃ val, Derives f.settings head.id (path, level)
      (f.store.descendants head.id head.tenant) val) ∧
    ∀ val, Derives f.settings head.id (path, level) (f.store.descendants head.id head.tenant) val →
      (∀ id, f.planCascade head path level ≠ .error (.reachedBeforeParent id)) ∧
      ((∃ e, f.planCascade head path level = .error e ∧ e.category = .validation) ↔
        ∃ n ∈ f.store.descendants head.id head.tenant, f.settings.maxDepth < (val n.id).2) ∧
      ((∀ n ∈ f.store.descendants head.id head.tenant, (val n.id).2 ≤ f.settings.maxDepth) →
        f.planCascade head path level =
          .ok (changedRows val (f.store.descendants head.id head.tenant))) := by
  have hfirst := parentsFirst_descendants f.store head.id head.tenant
  refine ⟨?_, fun val ⟨hhead, hval⟩ => ?_⟩
  · -- a valuation: the head at its new values, every descendant derived from its parent
    have hfresh : ∀ n ∈ f.store.descendants head.id head.tenant, n.id ∉ [head.id] := by
      intro n hn
      simpa using (mem_descendants hn).2.2
    obtain ⟨val, hagree, hderive⟩ := @exists_derived f.settings _ _ hfirst
      (nodup_descendants_ids hnd) hfresh (fun _ => (path, level))
    exact ⟨val, hagree head.id List.mem_cons_self, hderive⟩
  · have hplan : f.planCascade head path level =
        match (f.store.descendants head.id head.tenant).find?
            (fun n => decide (f.settings.maxDepth < (val n.id).2)) with
        | some n => .error (.tooDeep (val n.id).2 f.settings.maxDepth)
        | none => .ok ([].reverse ++ changedRows val (f.store.descendants head.id head.tenant)) :=
      planRows_eq (by simpa using hfirst) (fun k hk => by simp_all [List.lookup]) hval
    refine ⟨fun id => ?_, ⟨?_, ?_⟩, fun hall => ?_⟩
    · rw [hplan]
      split <;> simp
    · rintro ⟨e, he, -⟩
      rw [hplan] at he
      split at he
      · rename_i n hn
        exact ⟨n, List.mem_of_find?_eq_some hn, by simpa using List.find?_some hn⟩
      · cases he
    · rintro ⟨n, hn, hdeep⟩
      rw [hplan]
      -- some descendant is too deep, so the first one is found
      cases hfind : (f.store.descendants head.id head.tenant).find?
          (fun n => decide (f.settings.maxDepth < (val n.id).2)) with
      | none =>
        exact absurd (by simpa using hdeep) (List.find?_eq_none.1 hfind n hn)
      | some m => exact ⟨_, rfl, rfl⟩
    · rw [hplan]
      have hnone : (f.store.descendants head.id head.tenant).find?
          (fun n => decide (f.settings.maxDepth < (val n.id).2)) = none :=
        List.find?_eq_none.2 fun n hn => by simpa using hall n hn
      simp [hnone]

/-- Unit `A` of the loop store, whose parent is its own child `B`. -/
def loopHead : Entity := loopStore.entities.head (List.cons_ne_nil _ _)

/-- The plan for `A` of the loop store, moved to the root `Z`: the loop is cut at `A`, and `B`
is valued from `Z`. -/
theorem loop_plan_follows_derivation :
    (loopForest.store.entities.map Entity.id).Nodup ∧
    (∃ val, Derives loopForest.settings loopHead.id ("Z", 0)
      (loopForest.store.descendants loopHead.id loopHead.tenant) val) ∧
    ∀ val, Derives loopForest.settings loopHead.id ("Z", 0)
        (loopForest.store.descendants loopHead.id loopHead.tenant) val →
      (∀ id, loopForest.planCascade loopHead "Z" 0 ≠ .error (.reachedBeforeParent id)) ∧
      ((∃ e, loopForest.planCascade loopHead "Z" 0 = .error e ∧ e.category = .validation) ↔
        ∃ n ∈ loopForest.store.descendants loopHead.id loopHead.tenant,
          loopForest.settings.maxDepth < (val n.id).2) ∧
      ((∀ n ∈ loopForest.store.descendants loopHead.id loopHead.tenant,
          (val n.id).2 ≤ loopForest.settings.maxDepth) →
        loopForest.planCascade loopHead "Z" 0 =
          .ok (changedRows val (loopForest.store.descendants loopHead.id loopHead.tenant))) := by
  have hnd : (loopForest.store.entities.map Entity.id).Nodup := by decide
  exact ⟨hnd, planCascade_follows_derivation loopForest hnd loopHead "Z" 0⟩

end Forest

end TenantForest

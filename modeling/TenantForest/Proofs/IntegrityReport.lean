import TenantForest.Proofs.WellFormed
import TenantForest.Proofs.MoveDecision

/-!
# What the integrity report says, on any store

`Forest.verify` climbs from every active unit of a tenant along parent links and reports the
first problem it meets. On any store whose units have distinct identifiers, however corrupt
its links, paths and levels, the problem it reports for a unit is a condition on the parent
links themselves (`Store.Diagnosis`), and exactly one of its rules applies:

1. the parent is set but is no active unit of the tenant: `orphanedParent`;
2. the climb revisits a unit: `cycle`;
3. the climb leaves the active units of the tenant further up: nothing, since the orphan is
   reported on the unit whose parent it is;
4. the climb ends at a root, and the path is not the names of the root path joined root first:
   `pathMismatch`; or else the level is not the number of ancestors: `levelMismatch`.

Main statement: `verify_reports_diagnoses`. The report is empty exactly when every active unit
stands where its parent link puts it (`Store.Placed`) and no climb revisits a unit. The check is
global (a path against a whole root path) and the condition local (a unit against its parent);
they meet because a unit below an orphan is silent only while the orphan is not.

The climb never runs out of fuel: every step adds a unit it has not seen, and it starts with
one more step than there are units (`names_error`). So `cycle` is reported for a revisit only.

  §1 Climbs along parent links.
  §2 The names climb.
  §3 The diagnosis of one unit.
  §4 The report.
-/

namespace TenantForest

/-- Placing a unit below the head of a root path joins its name to the names of the path, root
first, and counts one level more. -/
theorem Settings.childOf_rootFirst (st : Settings) (e : Entity) {c : List Entity} (hc : c ≠ []) :
    st.childOf (st.separator.intercalate (c.map Entity.name).reverse) ((c.length : Int) - 1)
        e.name =
      (st.separator.intercalate ((e :: c).map Entity.name).reverse,
        ((e :: c).length : Int) - 1) := by
  rw [Settings.childOf, List.map_cons, List.reverse_cons,
    intercalate_append_singleton _ _ (by simpa using hc)]
  simp only [List.length_cons, Prod.mk.injEq, true_and]
  omega

namespace Store

variable {s : Store} {t : Ident}

/-! ## §1 Climbs along parent links -/

/-- A climb starts with the parent link of the unit it starts from. -/
theorem Descends.first_link {x a : Ident} (h : s.Descends t x a) : ∃ p, s.ParentLink t x p := by
  cases h with
  | parent link => exact ⟨_, link⟩
  | climb link _ => exact ⟨_, link⟩

/-- A climb arrives at a unit through a last parent link. -/
theorem Descends.last_link {x a : Ident} (h : s.Descends t x a) : ∃ b, s.ParentLink t b a := by
  induction h with
  | parent link => exact ⟨_, link⟩
  | climb _ _ ih => exact ih

/-- A climb goes on through one more parent link. -/
theorem Descends.tail {x y p : Ident} (h : s.Descends t x y) (link : s.ParentLink t y p) :
    s.Descends t x p := by
  induction h with
  | parent l => exact .climb l (.parent link)
  | climb l _ ih => exact .climb l (ih link)

/-- Every unit a climb meets before it leaves the active units of the tenant at `a` lies on
the way to `a`, and no climb from it returns to it. -/
theorem Descends.before_outside {x a : Ident} (h : s.Descends t x a)
    (ha : s.active? a t = none) :
    ∀ {b}, s.Descends t x b → b = a ∨ (s.Descends t b a ∧ ¬ s.Descends t b b) := by
  induction h with
  | @parent x a link =>
    intro b hb
    cases hb with
    | parent link' => exact .inl (link'.unique link)
    | climb link' hd =>
      -- the climb would go on from `a`, which is not active
      obtain ⟨e, he⟩ := hd.active
      rw [link'.unique link, ha] at he
      cases he
  | @climb x p a link hpa ih =>
    intro b hb
    cases hb with
    | parent link' =>
      obtain rfl := link'.unique link
      refine .inr ⟨hpa, fun hbb => ?_⟩
      rcases ih ha hbb with rfl | ⟨-, hn⟩
      · obtain ⟨e, he⟩ := hbb.active
        rw [ha] at he
        cases he
      · exact hn hbb
    | climb link' hd =>
      obtain rfl := link'.unique link
      exact ih ha hd

/-- A climb that leaves the active units of the tenant revisits no unit. -/
theorem Descends.not_cycle_of_outside {x a b : Ident} (h : s.Descends t x a)
    (ha : s.active? a t = none) (hb : s.Descends t x b) : ¬ s.Descends t b b := by
  intro hbb
  rcases h.before_outside ha hb with rfl | ⟨-, hn⟩
  · obtain ⟨e, he⟩ := hbb.active
    rw [ha] at he
    cases he
  · exact hn hbb

/-- A climb that ends at a root revisits no unit. -/
theorem RootPath.not_cycle {x : Ident} {c : List Entity} (h : s.RootPath t x c) {b : Ident}
    (hb : s.Descends t x b) : ¬ s.Descends t b b := by
  induction h generalizing b with
  | root he hroot =>
    -- a root has no parent link to climb
    obtain ⟨p, e', he', hp⟩ := hb.first_link
    rw [he, Option.some.injEq] at he'
    subst he'
    rw [hroot] at hp
    cases hp
  | climb he hp _ ih =>
    have link : s.ParentLink t _ _ := ⟨_, he, hp⟩
    cases hb with
    | parent link' =>
      obtain rfl := link'.unique link
      exact fun hbb => ih hbb hbb
    | climb link' hd =>
      obtain rfl := link'.unique link
      exact ih hd

/-- A climb that ends at a root stays among the active units of the tenant. -/
theorem RootPath.active_of_descends {x a : Ident} {c : List Entity} (h : s.RootPath t x c)
    (hd : s.Descends t x a) : ∃ e, s.active? a t = some e := by
  obtain ⟨e, he, rfl⟩ := h.mem_of_descends hd
  exact ⟨e, h.active e he⟩

/-- The climb from a unit ends at a root along one chain only. -/
theorem RootPath.unique {x : Ident} {c c' : List Entity} (h : s.RootPath t x c)
    (h' : s.RootPath t x c') : c = c' := by
  induction h generalizing c' with
  | root he hroot =>
    cases h' with
    | root he' _ =>
      rw [he, Option.some.injEq] at he'
      rw [he']
    | climb he' hp' _ =>
      rw [he, Option.some.injEq] at he'
      subst he'
      rw [hroot] at hp'
      cases hp'
  | climb he hp _ ih =>
    cases h' with
    | root he' hroot' =>
      rw [he, Option.some.injEq] at he'
      subst he'
      rw [hp] at hroot'
      cases hroot'
    | climb he' hp' hr' =>
      rw [he, Option.some.injEq] at he'
      subst he'
      rw [hp, Option.some.injEq] at hp'
      subst hp'
      rw [ih hr']

/-- Along a root path of units each standing where its parent link puts it, the path of the
first unit is the names of the root path joined root first, and its level counts its
ancestors. -/
theorem RootPath.path_of_placed {st : Settings} {x : Ident} {c : List Entity}
    (h : s.RootPath t x c) (hp : ∀ e ∈ c, s.Placed st e) {e : Entity}
    (he : s.active? x t = some e) :
    e.path = st.separator.intercalate (c.map Entity.name).reverse ∧ e.level = c.length - 1 := by
  induction h generalizing e with
  | @root x e₀ he₀ hroot =>
    rw [he₀, Option.some.injEq] at he
    subst he
    obtain ⟨q, hq, hder⟩ := hp e₀ List.mem_cons_self
    rw [hroot] at hq
    cases q with
    | some _ => exact (hq : False).elim
    | none =>
      simp only [Settings.derive, Prod.mk.injEq] at hder
      simp [← hder.1, ← hder.2]
  | @climb x p e₀ c he₀ hpar hc ih =>
    rw [he₀, Option.some.injEq] at he
    subst he
    obtain ⟨P, rest, rfl, hP⟩ := hc.head
    obtain ⟨hPpath, hPlevel⟩ := ih (fun e he => hp e (List.mem_cons_of_mem _ he)) hP
    -- the unit is derived from the head of the rest of the path, its parent
    obtain ⟨q, hq, hder⟩ := hp e₀ List.mem_cons_self
    rw [hpar] at hq
    cases q with
    | none => exact (hq : False).elim
    | some Q =>
      have hQ : s.active? p t = some Q := (mem_of_active? he₀).2.2.1 ▸ hq
      rw [hP, Option.some.injEq] at hQ
      subst hQ
      rw [Settings.derive, hPpath, hPlevel, st.childOf_rootFirst e₀ (List.cons_ne_nil _ _),
        Prod.mk.injEq] at hder
      exact ⟨hder.1.symm, hder.2.symm⟩

/-! ## §2 The names climb -/

section Climb

variable {units : List Entity} (hfind : ∀ x, units.find? (fun e => e.id == x) = s.active? x t)
include hfind

/-- A names climb that returns names has followed a root path, and returns its names root first
in front of those collected before. -/
theorem names_ok_some {fuel : Nat} {seen : List Ident} {acc l : List String} {x : Ident}
    (h : Integrity.names units fuel seen acc (some x) = .ok (some l)) :
    ∃ c, s.RootPath t x c ∧ l = (c.map Entity.name).reverse ++ acc := by
  induction fuel generalizing seen acc x with
  | zero => cases h
  | succ fuel ih =>
    simp only [Integrity.names, hfind] at h
    split at h
    · cases h
    cases he : s.active? x t with
    | none => simp [he] at h
    | some e =>
      simp only [he] at h
      cases hp : e.parent with
      | none =>
        simp only [hp, Integrity.names, Except.ok.injEq, Option.some.injEq] at h
        exact ⟨[e], .root he hp, by simp [h]⟩
      | some p =>
        rw [hp] at h
        obtain ⟨c, hc, rfl⟩ := ih h
        exact ⟨e :: c, .climb he hp hc, by simp⟩

/-- A names climb that returns nothing has left the active units of the tenant. -/
theorem names_ok_none {fuel : Nat} {seen : List Ident} {acc : List String} {x : Ident}
    (h : Integrity.names units fuel seen acc (some x) = .ok none) :
    ∃ a, (a = x ∨ s.Descends t x a) ∧ s.active? a t = none := by
  induction fuel generalizing seen acc x with
  | zero => cases h
  | succ fuel ih =>
    simp only [Integrity.names, hfind] at h
    split at h
    · cases h
    cases he : s.active? x t with
    | none => exact ⟨x, .inl rfl, he⟩
    | some e =>
      simp only [he] at h
      cases hp : e.parent with
      | none => simp [hp, Integrity.names] at h
      | some p =>
        rw [hp] at h
        have link : s.ParentLink t x p := ⟨e, he, hp⟩
        obtain ⟨a, hpa, ha⟩ := ih h
        exact ⟨a, .inr (hpa.elim (fun h => h ▸ .parent link) (.climb link)), ha⟩

/-- A names climb refuses only with `cycle`, and only after a revisit: a unit the climb from
`n` arrives at, and climbs back to. The units seen so far are distinct active units that all
climb to the current one, and the fuel outlasts the units not yet seen, so it never runs out. -/
theorem names_error {fuel : Nat} {seen : List Ident} {acc : List String} {x : Ident}
    {e : Problem} (h : Integrity.names units fuel seen acc (some x) = .error e)
    (hnd : seen.Nodup) (hact : ∀ y ∈ seen, ∃ u, s.active? y t = some u)
    (hfuel : units.length < fuel + seen.length) (hreach : ∀ y ∈ seen, s.Descends t y x)
    {n : Ident} (hn : n ∈ seen) :
    e = .cycle ∧ ∃ a, s.Descends t n a ∧ s.Descends t a a := by
  induction fuel generalizing seen acc x with
  | zero =>
    -- the units seen are distinct units, so there are no more of them than units
    have hsub : seen ⊆ units.map Entity.id := fun y hy => by
      obtain ⟨u, hu⟩ := hact y hy
      rw [← hfind] at hu
      exact List.mem_map.2 ⟨u, List.mem_of_find?_eq_some hu, by simpa using List.find?_some hu⟩
    have := (hnd.subperm hsub).length_le
    simp only [List.length_map] at this
    omega
  | succ fuel ih =>
    simp only [Integrity.names, hfind] at h
    split at h
    · rename_i hx
      cases h
      have hx : x ∈ seen := by simpa using hx
      exact ⟨rfl, x, hreach n hn, hreach x hx⟩
    rename_i hx
    have hx : x ∉ seen := by simpa using hx
    cases he : s.active? x t with
    | none => simp [he] at h
    | some u =>
      simp only [he] at h
      cases hp : u.parent with
      | none => simp [hp, Integrity.names] at h
      | some p =>
        rw [hp] at h
        have link : s.ParentLink t x p := ⟨u, he, hp⟩
        refine ih h (List.nodup_cons.2 ⟨hx, hnd⟩) ?_ (by simp; omega) ?_
          (List.mem_cons_of_mem x hn)
        · intro y hy
          rcases List.mem_cons.1 hy with rfl | hy
          · exact ⟨u, he⟩
          · exact hact y hy
        · intro y hy
          rcases List.mem_cons.1 hy with rfl | hy
          · exact .parent link
          · exact (hreach y hy).tail link

end Climb

/-! ## §3 The diagnosis of one unit -/

/-- The problem the integrity check has with the active unit `n` of tenant `t`, read off the
climb from `n` along parent links, under the separator `sep`. -/
inductive Diagnosis (s : Store) (sep : String) (t : Ident) (n : Entity) : Option Problem → Prop
  /-- The parent is set but is no active unit of the tenant. -/
  | orphaned {p : Ident} : n.parent = some p → s.active? p t = none →
      Diagnosis s sep t n (some (.orphanedParent p))
  /-- The parent is an active unit of the tenant, and the climb revisits a unit. -/
  | cycle {p a : Ident} {P : Entity} : n.parent = some p → s.active? p t = some P →
      s.Descends t n.id a → s.Descends t a a → Diagnosis s sep t n (some .cycle)
  /-- The parent is an active unit of the tenant, and the climb leaves the active units of
  the tenant further up. -/
  | stranded {p a : Ident} {P : Entity} : n.parent = some p → s.active? p t = some P →
      s.Descends t n.id a → s.active? a t = none → Diagnosis s sep t n none
  /-- The climb ends at a root, and the path is not the names of the root path joined root
  first. -/
  | pathMismatch {c : List Entity} : s.RootPath t n.id c →
      n.path ≠ sep.intercalate (c.map Entity.name).reverse →
      Diagnosis s sep t n (some (.pathMismatch (sep.intercalate (c.map Entity.name).reverse)))
  /-- The climb ends at a root, the path matches, and the level is not the number of
  ancestors. -/
  | levelMismatch {c : List Entity} : s.RootPath t n.id c →
      n.path = sep.intercalate (c.map Entity.name).reverse → n.level ≠ c.length - 1 →
      Diagnosis s sep t n (some (.levelMismatch (c.length - 1)))
  /-- The climb ends at a root, and the path and level match. -/
  | sound {c : List Entity} : s.RootPath t n.id c →
      n.path = sep.intercalate (c.map Entity.name).reverse → n.level = c.length - 1 →
      Diagnosis s sep t n none

variable {sep : String} {n : Entity} {r : Option Problem}

/-- The verdict on a unit whose climb ends at a root along `c`. -/
theorem diagnosis_of_rootPath {c : List Entity} (hr : s.RootPath t n.id c) :
    s.Diagnosis sep t n
      (if n.path ≠ sep.intercalate (c.map Entity.name).reverse then
        some (.pathMismatch (sep.intercalate (c.map Entity.name).reverse))
      else if n.level ≠ c.length - 1 then some (.levelMismatch (c.length - 1)) else none) := by
  by_cases hpath : n.path = sep.intercalate (c.map Entity.name).reverse
  · by_cases hlevel : n.level = c.length - 1
    · simpa [hpath, hlevel] using Diagnosis.sound hr hpath hlevel
    · simpa [hpath, hlevel] using Diagnosis.levelMismatch hr hpath hlevel
  · simpa [hpath] using Diagnosis.pathMismatch hr hpath

/-- A unit whose parent is active and whose climb leaves the active units of the tenant is
diagnosed with nothing. -/
theorem Diagnosis.eq_of_stranded (h : s.Diagnosis sep t n r) {p a : Ident} {P : Entity}
    (hp : n.parent = some p) (hP : s.active? p t = some P) (ha : s.Descends t n.id a)
    (hout : s.active? a t = none) : r = none := by
  cases h with
  | orphaned hp' hP' =>
    rw [hp, Option.some.injEq] at hp'
    subst hp'
    rw [hP] at hP'
    cases hP'
  | cycle _ _ hb hbb => exact absurd hbb (ha.not_cycle_of_outside hout hb)
  | stranded | sound => rfl
  | pathMismatch hr _ | levelMismatch hr _ _ =>
    obtain ⟨_, ha'⟩ := hr.active_of_descends ha
    rw [hout] at ha'
    cases ha'

section Rules

variable (hn : s.active? n.id t = some n)
include hn

/-- A unit whose climb ends at a root is diagnosed by its path and level. -/
theorem Diagnosis.eq_of_rootPath (h : s.Diagnosis sep t n r) {c : List Entity}
    (hr : s.RootPath t n.id c) :
    r = if n.path ≠ sep.intercalate (c.map Entity.name).reverse then
        some (.pathMismatch (sep.intercalate (c.map Entity.name).reverse))
      else if n.level ≠ c.length - 1 then some (.levelMismatch (c.length - 1)) else none := by
  cases h with
  | orphaned hp hP =>
    obtain ⟨_, hP'⟩ := hr.active_of_descends (.parent ⟨n, hn, hp⟩)
    rw [hP] at hP'
    cases hP'
  | cycle _ _ ha haa => exact absurd haa (hr.not_cycle ha)
  | stranded _ _ ha hout =>
    obtain ⟨_, ha'⟩ := hr.active_of_descends ha
    rw [hout] at ha'
    cases ha'
  | pathMismatch hr' hpath =>
    obtain rfl := hr.unique hr'
    simp [hpath]
  | levelMismatch hr' hpath hlevel =>
    obtain rfl := hr.unique hr'
    simp [hpath, hlevel]
  | sound hr' hpath hlevel =>
    obtain rfl := hr.unique hr'
    simp [hpath, hlevel]

/-- A unit whose parent is no active unit of the tenant is diagnosed as orphaned. -/
theorem Diagnosis.eq_of_orphaned (h : s.Diagnosis sep t n r) {p : Ident}
    (hp : n.parent = some p) (hP : s.active? p t = none) : r = some (.orphanedParent p) := by
  have link : s.ParentLink t n.id p := ⟨n, hn, hp⟩
  cases h with
  | orphaned hp' _ =>
    rw [hp, Option.some.injEq] at hp'
    rw [hp']
  | cycle hp' hP' _ _ | stranded hp' hP' _ _ =>
    rw [hp, Option.some.injEq] at hp'
    subst hp'
    rw [hP] at hP'
    cases hP'
  | pathMismatch hr _ | levelMismatch hr _ _ | sound hr _ _ =>
    obtain ⟨_, hP'⟩ := hr.active_of_descends (.parent link)
    rw [hP] at hP'
    cases hP'

/-- A unit whose climb revisits a unit is diagnosed with a cycle. -/
theorem Diagnosis.eq_of_cycle (h : s.Diagnosis sep t n r) {a : Ident}
    (ha : s.Descends t n.id a) (haa : s.Descends t a a) : r = some .cycle := by
  cases h with
  | orphaned hp hP =>
    exact absurd haa ((Descends.parent ⟨n, hn, hp⟩).not_cycle_of_outside hP ha)
  | cycle => rfl
  | stranded _ _ hb hout => exact absurd haa (hb.not_cycle_of_outside hout ha)
  | pathMismatch hr _ | levelMismatch hr _ _ | sound hr _ _ => exact absurd haa (hr.not_cycle ha)

/-- At most one rule of the diagnosis applies to a unit. -/
theorem Diagnosis.unique (h : s.Diagnosis sep t n r) {r' : Option Problem}
    (h' : s.Diagnosis sep t n r') : r = r' := by
  cases h with
  | orphaned hp hP => exact (h'.eq_of_orphaned hn hp hP).symm
  | cycle _ _ ha haa => exact (h'.eq_of_cycle hn ha haa).symm
  | stranded hp hP ha hout => exact (h'.eq_of_stranded hp hP ha hout).symm
  | pathMismatch hr hpath => simp [h'.eq_of_rootPath hn hr, hpath]
  | levelMismatch hr hpath hlevel => simp [h'.eq_of_rootPath hn hr, hpath, hlevel]
  | sound hr hpath hlevel => simp [h'.eq_of_rootPath hn hr, hpath, hlevel]

end Rules

section Check

variable {units : List Entity} (hfind : ∀ x, units.find? (fun e => e.id == x) = s.active? x t)
include hfind

/-- The integrity check of an active unit, among units found exactly as the active units of
its tenant, reports the unit's diagnosis. -/
theorem diagnosis_check (hn : s.active? n.id t = some n) :
    s.Diagnosis sep t n (Integrity.check sep units n) := by
  unfold Integrity.check
  cases hp : n.parent with
  | none =>
    have h : s.Diagnosis sep t n _ := diagnosis_of_rootPath (Store.RootPath.root hn hp)
    simpa [Integrity.names] using h
  | some p =>
    have hany : units.any (fun e => e.id == p) = (s.active? p t).isSome := by
      rw [← hfind]
      cases hf : units.find? (fun e => e.id == p) with
      | none =>
        rw [Option.isSome_none, List.any_eq_false]
        exact List.find?_eq_none.1 hf
      | some u =>
        rw [Option.isSome_some, List.any_eq_true]
        have hup := List.find?_some hf
        exact ⟨u, List.mem_of_find?_eq_some hf, hup⟩
    cases hP : s.active? p t with
    | none =>
      simp only [hany, hP, Option.isSome_none]
      exact .orphaned hp hP
    | some P =>
      simp only [hany, hP, Option.isSome_some, if_true]
      have link : s.ParentLink t n.id p := ⟨n, hn, hp⟩
      cases hnames : Integrity.names units (units.length + 1) [n.id] [n.name] (some p) with
      | error e =>
        obtain ⟨rfl, a, ha, haa⟩ := names_error hfind hnames (List.nodup_singleton _)
          (by simpa using ⟨n, hn⟩) (by simp only [List.length_singleton]; omega)
          (by simpa using Descends.parent link)
          (List.mem_singleton_self _)
        exact .cycle hp hP ha haa
      | ok res =>
        cases res with
        | none =>
          obtain ⟨a, ha, hout⟩ := names_ok_none hfind hnames
          exact .stranded hp hP (ha.elim (fun h => h ▸ .parent link) (.climb link)) hout
        | some l =>
          obtain ⟨c, hc, rfl⟩ := names_ok_some hfind hnames
          have h : s.Diagnosis sep t n _ := diagnosis_of_rootPath (Store.RootPath.climb hn hp hc)
          simpa using h

end Check

/-! ## §4 The report -/

/-- An active unit of a tenant is one of its active units. -/
theorem mem_activeOf_of_active? {x : Ident} {e : Entity} (h : s.active? x t = some e) :
    e ∈ s.activeOf t := by
  obtain ⟨hm, -, ht, ha⟩ := mem_of_active? h
  exact mem_activeOf.2 ⟨hm, by simp [Entity.activeIn, ht, ha]⟩

/-- A unit diagnosed with nothing, when every active unit stands where its parent link puts
it and no climb from it revisits a unit. -/
theorem Diagnosis.eq_none_of_placed {st : Settings} (hn : s.active? n.id t = some n)
    (hplaced : ∀ m ∈ s.activeOf t, s.Placed st m)
    (hacyclic : ¬ ∃ a, s.Descends t n.id a ∧ s.Descends t a a)
    (h : s.Diagnosis st.separator t n r) : r = none := by
  have chain_placed : ∀ {x : Ident} {c : List Entity}, s.RootPath t x c → ∀ e ∈ c,
      s.Placed st e := fun hr e he => hplaced e (mem_activeOf_of_active? (hr.active e he))
  cases h with
  | orphaned hp hP =>
    obtain ⟨q, hq, -⟩ := hplaced n (mem_activeOf_of_active? hn)
    rw [hp, (mem_of_active? hn).2.2.1] at hq
    cases q with
    | none => exact (hq : False).elim
    | some Q =>
      rw [show s.active? _ t = some Q from hq] at hP
      cases hP
  | cycle _ _ ha haa => exact absurd ⟨_, ha, haa⟩ hacyclic
  | pathMismatch hr hpath => exact absurd (hr.path_of_placed (chain_placed hr) hn).1 hpath
  | levelMismatch hr _ hlevel => exact absurd (hr.path_of_placed (chain_placed hr) hn).2 hlevel
  | stranded | sound => rfl

section Report

variable (hnd : (s.entities.map Entity.id).Nodup)
include hnd

/-- A rearrangement of the active units of a tenant finds a unit by its identifier exactly when
it is an active unit of the tenant. -/
theorem find?_of_perm_activeOf {units : List Entity} (hperm : units.Perm (s.activeOf t))
    (x : Ident) : units.find? (fun e => e.id == x) = s.active? x t := by
  have hnd_units : (units.map Entity.id).Nodup :=
    (hperm.map Entity.id).nodup_iff.2 (hnd.sublist (List.filter_sublist.map _))
  cases hx : s.active? x t with
  | some e =>
    obtain rfl := (mem_of_active? hx).2.1
    exact find?_id_of_mem hnd_units (hperm.symm.subset (mem_activeOf_of_active? hx))
  | none =>
    refine List.find?_eq_none.2 fun u hu hux => ?_
    have hua := active?_of_mem_activeOf hnd (hperm.subset hu)
    rw [show u.id = x by simpa using hux, hx] at hua
    cases hua

/-- When every active unit of the tenant is diagnosed with nothing, every one stands where its
parent link puts it, and no climb from one revisits a unit. -/
theorem placed_of_quiet {st : Settings}
    (hquiet : ∀ n ∈ s.activeOf t, s.Diagnosis st.separator t n none) :
    ∀ n ∈ s.activeOf t,
      s.Placed st n ∧ ¬ ∃ a, s.Descends t n.id a ∧ s.Descends t a a := by
  have hself : ∀ n ∈ s.activeOf t, s.active? n.id t = some n := fun n hn =>
    active?_of_mem_activeOf hnd hn
  -- every climb ends at a root: one leaving the active units would pass an orphan
  have rooted : ∀ n ∈ s.activeOf t, ∃ c, s.RootPath t n.id c ∧
      n.path = st.separator.intercalate (c.map Entity.name).reverse ∧ n.level = c.length - 1 := by
    intro n hn
    cases hquiet n hn with
    | stranded _ _ ha hout =>
      obtain ⟨b, e, he, hea⟩ := ha.last_link
      have heA := mem_activeOf_of_active? he
      cases (hquiet e heA).eq_of_orphaned (hself e heA) hea hout
    | sound hr hpath hlevel => exact ⟨_, hr, hpath, hlevel⟩
  intro n hn
  obtain ⟨c, hr, hpath, hlevel⟩ := rooted n hn
  refine ⟨?_, fun ⟨a, ha, haa⟩ => hr.not_cycle ha haa⟩
  have hten : n.tenant = t := (mem_of_active? (hself n hn)).2.2.1
  cases hr with
  | root he hroot =>
    rw [hself n hn, Option.some.injEq] at he
    subst he
    refine ⟨none, by simp [hroot, Resolves], ?_⟩
    simp [Settings.derive, hpath, hlevel]
  | @climb _ p e c he hpar hc =>
    rw [hself n hn, Option.some.injEq] at he
    subst he
    -- the parent heads the rest of the root path, and its path and level match it
    obtain ⟨P, rest, rfl, hP⟩ := hc.head
    have hPid : P.id = p := (mem_of_active? hP).2.1
    obtain ⟨c', hr', hPpath, hPlevel⟩ := rooted P (mem_activeOf_of_active? hP)
    rw [hPid] at hr'
    obtain rfl := hc.unique hr'
    refine ⟨some P, by simpa [Resolves, hpar, hten] using hP, ?_⟩
    rw [Settings.derive, hPpath, hPlevel, st.childOf_rootFirst n (List.cons_ne_nil _ _), hpath,
      hlevel]

end Report

end Store

namespace Forest

open Store

/-- **What the integrity report says.** On any store whose units have distinct identifiers,
the report of a tenant runs through the active units of the tenant, each once, in hierarchy
order, and lists each unit's diagnosis, which is unique. The report is empty exactly when
every active unit stands where its parent link puts it and no climb from it revisits a
unit. -/
theorem verify_reports_diagnoses (f : Forest) (hnd : (f.store.entities.map Entity.id).Nodup)
    (t : Ident) :
    (f.store.hierarchy f.settings.separator t).Perm (f.store.activeOf t) ∧
      (∃ problem : Entity → Option Problem,
        (∀ n ∈ f.store.activeOf t, ∀ r,
          f.store.Diagnosis f.settings.separator t n r ↔ r = problem n) ∧
        f.verify t = (f.store.hierarchy f.settings.separator t).filterMap
          fun n => (problem n).map (Issue.mk n.id n.path)) ∧
      (f.verify t = [] ↔ ∀ n ∈ f.store.activeOf t, f.store.Placed f.settings n ∧
        ¬ ∃ a, f.store.Descends t n.id a ∧ f.store.Descends t a a) := by
  have hperm : (f.store.hierarchy f.settings.separator t).Perm (f.store.activeOf t) :=
    Order.hierarchy_perm _ _
  have hself : ∀ n ∈ f.store.activeOf t, f.store.active? n.id t = some n := fun n hn =>
    active?_of_mem_activeOf hnd hn
  have hdiag : ∀ n ∈ f.store.activeOf t, f.store.Diagnosis f.settings.separator t n
      (Integrity.check f.settings.separator (f.store.hierarchy f.settings.separator t) n) :=
    fun n hn => diagnosis_check (find?_of_perm_activeOf hnd hperm) (hself n hn)
  refine ⟨hperm, ⟨_, fun n hn r => ⟨fun h => h.unique (hself n hn) (hdiag n hn),
    fun h => h ▸ hdiag n hn⟩, rfl⟩, ?_⟩
  -- the report is empty exactly when every active unit is diagnosed with nothing
  have quiet : f.verify t = [] ↔ ∀ n ∈ f.store.activeOf t,
      Integrity.check f.settings.separator (f.store.hierarchy f.settings.separator t) n =
        none := by
    simp only [verify, List.filterMap_eq_nil_iff, Option.map_eq_none_iff, hperm.mem_iff]
  rw [quiet]
  constructor
  · intro hnone
    exact placed_of_quiet hnd fun n hn => hnone n hn ▸ hdiag n hn
  · intro hloc n hn
    exact (hdiag n hn).eq_none_of_placed (hself n hn) (fun m hm => (hloc m hm).1)
      (hloc n hn).2

/-- The forest of two units that are each other's parent. -/
def loopForest : Forest := { store := loopStore }

/-- On the forest of two units in a loop, the report follows the diagnoses, and is not empty. -/
theorem loop_forest_reports_diagnoses :
    (loopForest.store.entities.map Entity.id).Nodup ∧
      (loopForest.store.hierarchy loopForest.settings.separator (Ident.ofNat 1)).Perm
          (loopForest.store.activeOf (Ident.ofNat 1)) ∧
      (∃ problem : Entity → Option Problem,
        (∀ n ∈ loopForest.store.activeOf (Ident.ofNat 1), ∀ r,
          loopForest.store.Diagnosis loopForest.settings.separator (Ident.ofNat 1) n r ↔
            r = problem n) ∧
        loopForest.verify (Ident.ofNat 1) =
          (loopForest.store.hierarchy loopForest.settings.separator (Ident.ofNat 1)).filterMap
            fun n => (problem n).map (Issue.mk n.id n.path)) ∧
      (loopForest.verify (Ident.ofNat 1) = [] ↔
        ∀ n ∈ loopForest.store.activeOf (Ident.ofNat 1),
        loopForest.store.Placed loopForest.settings n ∧
          ¬ ∃ a, loopForest.store.Descends (Ident.ofNat 1) n.id a ∧
            loopForest.store.Descends (Ident.ofNat 1) a a) :=
  ⟨by decide, verify_reports_diagnoses loopForest (by decide) (Ident.ofNat 1)⟩

end Forest

end TenantForest

import TenantForest.Proofs.IntegrityReport

/-!
# Stores that differ in one parent link

A move of the unit `x` below `target` sets one parent link, that of `x`, and writes paths,
levels, versions and last writers. `Store.Relinked x target s s'` says that `s'` is `s` changed
that far and no further: it holds the same identifiers in the same order, and each of its units
is the unit of `s` with the link a move gives it (`target` for `x`, its own for every other
unit), placed again (`Entity.Reframed`): the path, level, version and last writer may differ,
but a retired unit keeps its path and level.

Only the link of `x` differs, so every climb that does not pass `x` reads the same links in both
stores:

* a root path of `s` is, name for name, one of `s'` when it avoids `x` (`RootPath.transfer`);
* a climb that stops at `x` is one of `s'` too (`HangsBelow.relinked`), and in two shaped stores
  it covers the same number of levels (`HangsBelow.level_sub_eq`).

In a shaped store the path and level of an active unit are the ones its root path spells, so
two shaped stores whose units agree on links, names and states agree on paths and levels as
well (`Shaped.restamped`): only versions and last writers can tell them apart.

  §1 Units placed again.
  §2 Stores relinked below a target.
  §3 Climbs that avoid the relinked unit.
  §4 Shaped stores are fixed by their links.
-/

namespace TenantForest

/-! ## §1 Units placed again -/

namespace Entity

/-- `e'` is `e` written again: only the version and the last writer may differ. -/
def Restamped (e e' : Entity) : Prop :=
  e' = { e with version := e'.version, updatedBy := e'.updatedBy }

/-- `e'` is `e` placed again: the path, level, version and last writer may differ, and a retired
unit keeps its path and level. -/
def Reframed (e e' : Entity) : Prop :=
  e' = { e with path := e'.path, level := e'.level, version := e'.version,
                updatedBy := e'.updatedBy } ∧
    (e.isActive = false → e'.path = e.path ∧ e'.level = e.level)

/-- `e'` is `e` as a move of `x` below `target` may leave it: placed again, with the parent link
`target` when `e` is `x`. -/
def Relinked (x : Ident) (target : Option Ident) (e e' : Entity) : Prop :=
  Reframed { e with parent := if e.id = x then target else e.parent } e'

namespace Reframed

section Fields

variable {e e' : Entity} (h : e.Reframed e')
include h

/-- A unit placed again keeps its identifier. -/
theorem id_eq : e'.id = e.id := by rw [h.1]

/-- A unit placed again keeps its tenant. -/
theorem tenant_eq : e'.tenant = e.tenant := by rw [h.1]

/-- A unit placed again keeps its name. -/
theorem name_eq : e'.name = e.name := by rw [h.1]

/-- A unit placed again keeps its parent link. -/
theorem parent_eq : e'.parent = e.parent := by rw [h.1]

/-- A unit placed again keeps its state. -/
theorem state_eq : e'.state = e.state := by rw [h.1]

/-- A unit placed again is active in a tenant exactly when the unit was. -/
theorem activeIn_eq (t : Ident) : e'.activeIn t = e.activeIn t := by
  simp only [Entity.activeIn, Entity.isActive, h.tenant_eq, h.state_eq]

/-- A unit placed again is named as before. -/
theorem namedAlike : e'.NamedAlike e := ⟨h.tenant_eq, h.parent_eq, h.name_eq⟩

/-- A unit placed again on its own path and level is only written again. -/
theorem restamped (hpath : e'.path = e.path) (hlevel : e'.level = e.level) : e.Restamped e' := by
  unfold Restamped
  rw [h.1, hpath, hlevel]

end Fields

/-- Every unit is placed again as itself. -/
theorem refl (e : Entity) : e.Reframed e := ⟨rfl, fun _ => ⟨rfl, rfl⟩⟩

/-- Two placements of one unit are placements of each other. -/
theorem of_common {a b c : Entity} (hb : a.Reframed b) (hc : a.Reframed c) : b.Reframed c := by
  obtain ⟨hb, hbi⟩ := hb
  obtain ⟨hc, hci⟩ := hc
  refine ⟨?_, fun hact => ?_⟩
  · rw [hc, hb]
  · -- a retired `b` is a retired `a`, whose path and level both placements keep
    have hact' : a.isActive = false := by
      rw [hb] at hact
      exact hact
    obtain ⟨hbp, hbl⟩ := hbi hact'
    obtain ⟨hcp, hcl⟩ := hci hact'
    exact ⟨hcp.trans hbp.symm, hcl.trans hbl.symm⟩

end Reframed

/-- A relocated active unit is placed again. -/
theorem Relocated.reframed {e e' : Entity} (h : e.Relocated e') (hact : e.isActive = true) :
    e.Reframed e' := by
  refine ⟨?_, fun h' => absurd hact (by simp [h'])⟩
  unfold Relocated at h
  rw [h]

namespace Relinked

variable {x : Ident} {target : Option Ident} {e e' : Entity}

/-- A relinked unit keeps its identifier. -/
theorem id_eq (h : e.Relinked x target e') : e'.id = e.id := by
  unfold Relinked at h
  exact h.id_eq

/-- A relinked unit is active in a tenant exactly when the unit was. -/
theorem activeIn_eq (h : e.Relinked x target e') (t : Ident) : e'.activeIn t = e.activeIn t := by
  unfold Relinked at h
  exact h.activeIn_eq t

/-- The relinked unit `x` is named as `x` below the target. -/
theorem namedAlike_of_eq (h : e.Relinked x target e') (hx : e.id = x) :
    e'.NamedAlike { e with parent := target } := by
  unfold Relinked at h
  rw [if_pos hx] at h
  exact h.namedAlike

/-- The relinked unit `x` has the target for parent. -/
theorem parent_eq_target (h : e.Relinked x target e') (hx : e.id = x) : e'.parent = target :=
  (h.namedAlike_of_eq hx).2.1

/-- Every unit other than `x` is only placed again. -/
theorem reframed (h : e.Relinked x target e') (hx : e.id ≠ x) : e.Reframed e' := by
  unfold Relinked at h
  rw [if_neg hx] at h
  exact h

/-- A unit other than `x` placed again is relinked. -/
theorem of_reframed (h : e.Reframed e') (hx : e.id ≠ x) : e.Relinked x target e' := by
  unfold Relinked
  rw [if_neg hx]
  exact h

/-- A unit is relinked as itself when it is not `x`, or is `x` already below the target. -/
theorem self (h : e.id = x → e.parent = target) : e.Relinked x target e := by
  unfold Relinked
  by_cases hx : e.id = x
  · rw [if_pos hx, ← h hx]
    exact Reframed.refl e
  · rw [if_neg hx]
    exact Reframed.refl e

/-- Relinking below `a` and then below `b` is relinking below `b`. -/
theorem trans {a b : Option Ident} {e₁ e₂ : Entity} (h₁ : e.Relinked x a e₁)
    (h₂ : e₁.Relinked x b e₂) : e.Relinked x b e₂ := by
  have hid : e₁.id = e.id := h₁.id_eq
  obtain ⟨h₁, h₁i⟩ := h₁
  obtain ⟨h₂, h₂i⟩ := h₂
  refine ⟨?_, fun hact => ?_⟩
  · rw [h₂, hid, h₁]
    by_cases hx : e.id = x <;> simp [hx]
  · have hact₁ : e₁.isActive = false := by
      rw [h₁]
      exact hact
    obtain ⟨hp₁, hl₁⟩ := h₁i hact
    obtain ⟨hp₂, hl₂⟩ := h₂i (by rw [hid] at *; exact hact₁)
    exact ⟨hp₂.trans hp₁, hl₂.trans hl₁⟩

/-- Two relinkings of one unit below one target are placements of each other. -/
theorem of_common {e₁ e₂ : Entity} (h₁ : e.Relinked x target e₁) (h₂ : e.Relinked x target e₂) :
    e₁.Reframed e₂ := by
  unfold Relinked at h₁ h₂
  exact h₁.of_common h₂

end Relinked

end Entity

/-! ## §2 Stores relinked below a target -/

namespace Store

variable {s s' s'' : Store} {st : Settings} {t x : Ident} {target : Option Ident}

/-- `s'` is `s` after a move of `x` below `target`, as far as links, names and states go: the
same identifiers in the same order, and each unit relinked. -/
structure Relinked (x : Ident) (target : Option Ident) (s s' : Store) : Prop where
  /-- The same identifiers, in the same order. -/
  ids : s'.entities.map Entity.id = s.entities.map Entity.id
  /-- A unit is found in both stores or in neither, relinked. -/
  units : ∀ y, Option.Rel (Entity.Relinked x target) (s.find? y) (s'.find? y)

/-- Two stores that find related units under every identifier, by a relation that keeps tenant
and state, find related active units. -/
theorem active?_rel {R : Entity → Entity → Prop}
    (hR : ∀ e e', R e e' → ∀ t, e'.activeIn t = e.activeIn t)
    (h : ∀ y, Option.Rel R (s.find? y) (s'.find? y)) (y t : Ident) :
    Option.Rel R (s.active? y t) (s'.active? y t) := by
  unfold Store.active?
  have r := h y
  generalize s.find? y = o at r ⊢
  generalize s'.find? y = o' at r ⊢
  cases r with
  | none => exact .none
  | some h =>
    rw [Option.filter_some, Option.filter_some, hR _ _ h t]
    split
    · exact .some h
    · exact .none

namespace Relinked

/-- A store is relinked as itself when `x` is missing or already below the target. -/
theorem self (h : ∀ e, s.find? x = some e → e.parent = target) : s.Relinked x target s := by
  refine ⟨rfl, fun y => ?_⟩
  cases hy : s.find? y with
  | none => exact .none
  | some e =>
    refine .some (Entity.Relinked.self fun hx => h e ?_)
    -- the unit found for `y` carries `y`, which is then `x`
    have hid : e.id = y := by simpa using List.find?_some hy
    rw [← hx, hid]
    exact hy

/-- Relinking below `a` and then below `b` is relinking below `b`. -/
theorem trans {a b : Option Ident} (h₁ : s.Relinked x a s') (h₂ : s'.Relinked x b s'') :
    s.Relinked x b s'' := by
  refine ⟨h₂.ids.trans h₁.ids, fun y => ?_⟩
  have r₁ := h₁.units y
  have r₂ := h₂.units y
  generalize s.find? y = o at r₁
  generalize s'.find? y = o' at r₁ r₂
  generalize s''.find? y = o'' at r₂
  cases r₁ with
  | none =>
    cases r₂ with
    | none => exact .none
  | some h =>
    cases r₂ with
    | some h' => exact .some (h.trans h')

/-- A unit is active in both stores or in neither, relinked. -/
theorem active? (hm : s.Relinked x target s') (y t : Ident) :
    Option.Rel (Entity.Relinked x target) (s.active? y t) (s'.active? y t) :=
  active?_rel (fun _ _ h => h.activeIn_eq) hm.units y t

/-- The unit `s` finds active, the relinked store finds active, relinked. -/
theorem active?_some (hm : s.Relinked x target s') {y : Ident} {e : Entity}
    (he : s.active? y t = some e) : ∃ e', s'.active? y t = some e' ∧ e.Relinked x target e' := by
  have r := hm.active? y t
  rw [he] at r
  cases he' : s'.active? y t with
  | none =>
    rw [he'] at r
    simp at r
  | some e' =>
    rw [he', Option.rel_some_some] at r
    exact ⟨e', rfl, r⟩

/-- A unit other than `x` is active in both stores or in neither, placed again. -/
theorem active?_reframed (hm : s.Relinked x target s') {y : Ident} (hy : y ≠ x) (t : Ident) :
    Option.Rel Entity.Reframed (s.active? y t) (s'.active? y t) := by
  have r := hm.active? y t
  have hid : ∀ e, s.active? y t = some e → e.id = y := fun e he => (mem_of_active? he).2.1
  generalize s.active? y t = o at r hid
  generalize s'.active? y t = o' at r
  cases r with
  | none => exact .none
  | some h =>
    rename_i e e'
    exact .some (h.reframed fun hx => hy ((hid e rfl).symm.trans hx))

/-- A unit other than `x` that the relinked store finds active, `s` finds active, and the one is
the other placed again. -/
theorem active?_some_of_ne (hm : s.Relinked x target s') {y : Ident} (hy : y ≠ x) {e' : Entity}
    (he' : s'.active? y t = some e') : ∃ e, s.active? y t = some e ∧ e.Reframed e' := by
  have r := hm.active?_reframed hy t
  rw [he'] at r
  cases he : s.active? y t with
  | none =>
    rw [he] at r
    simp at r
  | some e =>
    rw [he, Option.rel_some_some] at r
    exact ⟨e, rfl, r⟩

/-- Two stores relinked from one below one target find units placed again under every
identifier. -/
theorem of_common (h₁ : s.Relinked x target s') (h₂ : s.Relinked x target s'') (y : Ident) :
    Option.Rel Entity.Reframed (s'.find? y) (s''.find? y) := by
  have r₁ := h₁.units y
  have r₂ := h₂.units y
  generalize s.find? y = o at r₁ r₂
  generalize s'.find? y = o' at r₁
  generalize s''.find? y = o'' at r₂
  cases r₁ with
  | none =>
    cases r₂ with
    | none => exact .none
  | some h =>
    cases r₂ with
    | some h' => exact .some (h.of_common h')

/-- A unit other than `x` has the same parent link in both stores. -/
theorem parentLink_iff (hm : s.Relinked x target s') {y p : Ident} (hy : y ≠ x) :
    s.ParentLink t y p ↔ s'.ParentLink t y p := by
  unfold ParentLink
  have r := hm.active?_reframed hy t
  generalize s.active? y t = o at r ⊢
  generalize s'.active? y t = o' at r ⊢
  cases r with
  | none => simp
  | some h => simp [h.parent_eq]

end Relinked

/-! ## §3 Climbs that avoid the relinked unit -/

/-- A root path carries over to another store that finds each of its units active, with the same
parent link and name: there it is a root path with the same names. -/
theorem RootPath.transfer {y : Ident} {c : List Entity} (h : s.RootPath t y c)
    (hc : ∀ e ∈ c, ∃ e', s'.active? e.id t = some e' ∧ e'.parent = e.parent ∧ e'.name = e.name) :
    ∃ c', s'.RootPath t y c' ∧ c'.map Entity.name = c.map Entity.name := by
  induction h with
  | @root y e he hroot =>
    obtain ⟨e', he', hp, hn⟩ := hc e (List.mem_singleton_self e)
    rw [(mem_of_active? he).2.1] at he'
    exact ⟨[e'], .root he' (hp.trans hroot), by simp [hn]⟩
  | @climb y p e c he hp _ ih =>
    obtain ⟨e', he', hp', hn⟩ := hc e List.mem_cons_self
    obtain ⟨c', hc', hnames⟩ := ih fun u hu => hc u (List.mem_cons_of_mem e hu)
    rw [(mem_of_active? he).2.1] at he'
    exact ⟨e' :: c', .climb he' (hp'.trans hp) hc', by simp [hn, hnames]⟩

/-- A climb that stops at `x` from another unit reads links other than that of `x` only, so the
relinked store has it too. -/
theorem HangsBelow.relinked (hm : s.Relinked x target s') {d a : Ident}
    (h : s.HangsBelow t x d a) (hd : d ≠ x) : s'.HangsBelow t x d a := by
  induction h with
  | parent link => exact .parent ((hm.parentLink_iff hd).1 link)
  | climb link hp _ ih => exact .climb ((hm.parentLink_iff hd).1 link) hp (ih hp)

/-- A unit that descends from `x` in a shaped store descends from it in the relinked store. -/
theorem Descends.relinked (hs : s.Shaped st) (hm : s.Relinked x target s') {d : Ident}
    (h : s.Descends t d x) : s'.Descends t d x := by
  have hd : d ≠ x := by
    rintro rfl
    exact hs.not_descends_self h
  exact (h.hangsBelow.relinked hm hd).descends

/-- Along a climb that stops at `x`, two shaped stores, one relinked from the other, cover the
same number of levels: each link of the climb is one level in both. -/
theorem HangsBelow.level_sub_eq {st' : Settings} (hs : s.Shaped st) (hs' : s'.Shaped st')
    (hm : s.Relinked x target s') {d a : Ident} (h : s.HangsBelow t x d a) (hd : d ≠ x)
    {D D' A A' : Entity} (hD : s.active? d t = some D) (hD' : s'.active? d t = some D')
    (hA : s.active? a t = some A) (hA' : s'.active? a t = some A') :
    D.level - A.level = D'.level - A'.level := by
  induction h generalizing D D' with
  | parent link =>
    obtain ⟨ex, ea, hx, ha, hlevel⟩ := hs.level_of_link link
    obtain ⟨ex', ea', hx', ha', hlevel'⟩ := hs'.level_of_link ((hm.parentLink_iff hd).1 link)
    rw [hD] at hx
    rw [hD'] at hx'
    rw [hA] at ha
    rw [hA'] at ha'
    cases hx; cases hx'; cases ha; cases ha'
    omega
  | @climb d p a link hp _ ih =>
    obtain ⟨ex, P, hx, hP, hlevel⟩ := hs.level_of_link link
    obtain ⟨ex', P', hx', hP', hlevel'⟩ := hs'.level_of_link ((hm.parentLink_iff hd).1 link)
    rw [hD] at hx
    rw [hD'] at hx'
    cases hx; cases hx'
    have := ih hp hP hP' hA hA'
    omega

/-! ## §4 Shaped stores are fixed by their links -/

/-- In a shaped store an active unit's path spells the names of its root path, and its level
counts the units above it. -/
theorem Shaped.place_of_rootPath (hs : s.Shaped st) {y : Ident} {a : Entity} {c : List Entity}
    (ha : s.active? y t = some a) (hc : s.RootPath t y c) :
    a.path = st.separator.intercalate (c.map Entity.name).reverse ∧ a.level + 1 = c.length := by
  obtain ⟨c₀, hc₀, hlen, hpath, -⟩ := hs.rootPath_of_active (mem_activeOf_of_active? ha)
  rw [(mem_of_active? ha).2.1] at hc₀
  rw [hc₀.unique hc] at hlen hpath
  exact ⟨hpath.symm, hlen.symm⟩

/-- In a shaped store the parent of an active unit is an active unit of its tenant, not the unit
itself and not below it, one level up. -/
theorem Shaped.parent_active (hs : s.Shaped st) {y p : Ident} {e : Entity}
    (he : s.active? y t = some e) (hp : e.parent = some p) :
    p ≠ y ∧ ¬ s.Descends t p y ∧ ∃ P, s.active? p t = some P ∧ e.level = P.level + 1 := by
  have link : s.ParentLink t y p := ⟨e, he, hp⟩
  obtain ⟨e₀, P, he₀, hP, hlevel⟩ := hs.level_of_link link
  rw [he] at he₀
  cases he₀
  refine ⟨?_, fun hd => hs.not_descends_self (.climb link hd), P, hP, hlevel⟩
  rintro rfl
  exact hs.not_descends_self (.parent link)

/-- Two shaped stores under one separator place a unit alike when each unit of its root path in
the first is active in the second, with the same link and name. -/
theorem Shaped.place_eq_of_rootPath {st' : Settings} (hs : s.Shaped st) (hs' : s'.Shaped st')
    (hsep : st'.separator = st.separator) {y : Ident} {P P' : Entity} {c : List Entity}
    (hP : s.active? y t = some P) (hP' : s'.active? y t = some P') (hc : s.RootPath t y c)
    (hunits : ∀ u ∈ c, ∃ u', s'.active? u.id t = some u' ∧ u'.parent = u.parent ∧
      u'.name = u.name) :
    P'.path = P.path ∧ P'.level = P.level := by
  obtain ⟨c', hc', hnames⟩ := hc.transfer hunits
  obtain ⟨hpath, hlevel⟩ := hs.place_of_rootPath hP hc
  obtain ⟨hpath', hlevel'⟩ := hs'.place_of_rootPath hP' hc'
  have hlen : c'.length = c.length := by
    rw [← List.length_map (f := Entity.name), hnames, List.length_map]
  refine ⟨?_, by omega⟩
  rw [hpath, hpath', hnames, hsep]

/-- A unit other than `x` that does not descend from `x` stands alike in a shaped store and in a
shaped store relinked from it: its root path avoids `x`. -/
theorem Relinked.place_eq {st' : Settings} (hs : s.Shaped st) (hs' : s'.Shaped st')
    (hsep : st'.separator = st.separator) (hm : s.Relinked x target s') {y : Ident}
    (hy : y ≠ x) (hnd : ¬ s.Descends t y x) {P P' : Entity} (hP : s.active? y t = some P)
    (hP' : s'.active? y t = some P') : P'.path = P.path ∧ P'.level = P.level := by
  obtain ⟨c, hc, -⟩ := hs.rootPath_of_active (mem_activeOf_of_active? hP)
  rw [(mem_of_active? hP).2.1] at hc
  refine hs.place_eq_of_rootPath hs' hsep hP hP' hc fun u hu => ?_
  -- no unit of the root path is `x`, which would then be above `y`
  have hux : u.id ≠ x := by
    intro hux
    rcases hc.descends_of_mem hu with h | h
    · exact hy (h.symm.trans hux)
    · exact hnd (hux ▸ h)
  obtain ⟨u', hu', hr⟩ := hm.active?_some (hc.active u hu)
  have hr := hr.reframed hux
  exact ⟨u', hu', hr.parent_eq, hr.name_eq⟩

/-- Two shaped stores under one separator that find the same units with the same links, names
and states find them on the same paths and levels. -/
theorem Shaped.restamped {st' : Settings} (hs : s.Shaped st) (hs' : s'.Shaped st')
    (hsep : st'.separator = st.separator)
    (h : ∀ y, Option.Rel Entity.Reframed (s.find? y) (s'.find? y)) {y : Ident} {a a' : Entity}
    (ha : s.find? y = some a) (ha' : s'.find? y = some a') (hr : a.Reframed a') :
    a.Restamped a' := by
  cases hact : a.isActive with
  | false =>
    obtain ⟨hp, hl⟩ := hr.2 hact
    exact hr.restamped hp hl
  | true =>
    -- both stores spell the place of `a` from one chain of links and names
    have hin : a.activeIn a.tenant = true := by simp [Entity.activeIn, hact]
    have hA : s.active? y a.tenant = some a := by simp [active?, ha, hin]
    have hA' : s'.active? y a.tenant = some a' := by simp [active?, ha', hr.activeIn_eq, hin]
    obtain ⟨c, hc, -⟩ := hs.rootPath_of_active (mem_activeOf_of_active? hA)
    rw [(mem_of_active? hA).2.1] at hc
    refine (hs.place_eq_of_rootPath hs' hsep hA hA' hc fun u hu => ?_).elim hr.restamped
    have r := active?_rel (fun _ _ h => h.activeIn_eq) h u.id a.tenant
    rw [hc.active u hu] at r
    cases hu' : s'.active? u.id a.tenant with
    | none =>
      rw [hu'] at r
      simp at r
    | some u' =>
      rw [hu', Option.rel_some_some] at r
      exact ⟨u', rfl, r.parent_eq, r.name_eq⟩

/-- Two keyed lists with the same identifiers in the same order, whose units under each
identifier are related, are related unit by unit. -/
theorem forall₂_of_find? {R : Entity → Entity → Prop} {l l' : List Entity}
    (hids : l'.map Entity.id = l.map Entity.id) (hnd : (l.map Entity.id).Nodup)
    (h : ∀ y, Option.Rel R (l.find? fun e => e.id == y) (l'.find? fun e => e.id == y)) :
    List.Forall₂ R l l' := by
  induction l generalizing l' with
  | nil =>
    rw [List.map_nil, List.map_eq_nil_iff] at hids
    subst hids
    exact .nil
  | cons a as ih =>
    obtain ⟨b, bs, rfl, hb, hbs⟩ := List.map_eq_cons_iff.1 hids
    obtain ⟨ha, hnd⟩ := List.nodup_cons.1 hnd
    have hab : R a b := by
      have := h a.id
      simp only [List.find?_cons, hb, beq_self_eq_true] at this
      exact Option.rel_some_some.1 this
    refine .cons hab (ih hbs hnd fun y => ?_)
    -- below the head, every identifier is looked up past it in both lists
    by_cases hy : a.id = y
    · subst hy
      have hnone : as.find? (fun e => e.id == a.id) = none := by
        refine List.find?_eq_none.2 fun e he heq => ha ?_
        rw [← beq_iff_eq.1 heq]
        exact List.mem_map_of_mem he
      have hnone' : bs.find? (fun e => e.id == a.id) = none := by
        refine List.find?_eq_none.2 fun e he heq => ha ?_
        rw [← beq_iff_eq.1 heq, ← hbs]
        exact List.mem_map_of_mem he
      rw [hnone, hnone']
      exact .none
    · have := h y
      simpa [List.find?_cons, hb, hy] using this

/-- Two shaped stores under one separator, with the same identifiers in the same order, whose
units under each identifier are placed again, hold the same units written again, in order. -/
theorem Shaped.forall₂_restamped {st' : Settings} (hs : s.Shaped st) (hs' : s'.Shaped st')
    (hsep : st'.separator = st.separator)
    (hids : s'.entities.map Entity.id = s.entities.map Entity.id)
    (h : ∀ y, Option.Rel Entity.Reframed (s.find? y) (s'.find? y)) :
    List.Forall₂ Entity.Restamped s.entities s'.entities := by
  refine forall₂_of_find? hids hs.keyed.nodup fun y => ?_
  show Option.Rel Entity.Restamped (s.find? y) (s'.find? y)
  have r := h y
  generalize ho : s.find? y = o at r ⊢
  generalize ho' : s'.find? y = o' at r ⊢
  cases r with
  | none => exact .none
  | some hr => exact .some (hs.restamped hs' hsep h ho ho' hr)

end Store

end TenantForest

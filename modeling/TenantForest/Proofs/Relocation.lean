import TenantForest.Proofs.Refusals

/-!
# What a rename or a move writes

A rename or a move that is not a no-op relocates one subtree. Its head `x` becomes `x'`: the new
name (rename) or the new parent (move), the path and level derived from its parent, the version
raised by one, the acting user recorded when there is one, and nothing else changed. Every
active descendant keeps its place relative to the head: if its path was the head's path
followed by `suffix`, it becomes the new head path followed by the same `suffix`, and its
depth below the head is kept. A descendant is written, with its version raised by one, exactly
when its path or level changes. Every other unit, of any tenant and state, is left as it was,
and no unit is added.

`Store.Relocation s s' t x x'` collects the facts about the subtree; `relocation_of_commit`
proves them for every commit of a head and its planned cascade, and the main statement
`rename_and_move_relocate_subtree` reads them, and the head's own fields, off a rename or a
move of a reachable forest.

The one induction is `Plan.lookup_of_descends`, along the parent links from a descendant up to
the head: the plan derives each descendant from its parent's derived values, while the shaped
store had derived it from its parent's stored values, so both differ from the head's by the same
suffix.

  §1 Relocations.
  §2 The plan along a descendant's parent links.
  §3 A commit of a planned cascade.
  §4 Renames and moves.
-/

namespace TenantForest

/-! ## §1 Relocations -/

namespace Store

/-- What relocating the subtree of `x` in tenant `t` to the head `x'` did to the store `s`,
giving `s'`: the head is `x'`, each active descendant keeps its path suffix and its depth below
the head, with its version raised exactly when it moved, every other unit is as it was, and no
unit is added. -/
structure Relocation (s s' : Store) (t : Ident) (x x' : Entity) : Prop where
  /-- The head is found as `x'`. -/
  head : s'.find? x.id = some x'
  /-- Every active descendant keeps its path suffix and depth below the head. -/
  subtree : ∀ d ∈ s.entities, d.activeIn t = true → s.Descends t d.id x.id →
    ∃ d' suffix, s'.find? d.id = some d' ∧ d.path = x.path ++ suffix ∧
      d'.path = x'.path ++ suffix ∧ d'.level = x'.level + (d.level - x.level) ∧
      d'.version = (if d'.path = d.path ∧ d'.level = d.level then d.version else d.version + 1) ∧
      d.Relocated d'
  /-- Every unit that is neither the head nor an active descendant is as it was. -/
  others : ∀ e ∈ s.entities, e.id ≠ x.id → ¬ (e.activeIn t = true ∧ s.Descends t e.id x.id) →
    s'.find? e.id = some e
  /-- The same units, in the same order. -/
  ids : s'.entities.map Entity.id = s.entities.map Entity.id
  /-- No identifier is drawn. -/
  issued : s'.issued = s.issued

/-- The head a relocation leaves stands where its parent link puts it, when the store after
is shaped and the head is active. -/
theorem Relocation.placed {s s' : Store} {st : Settings} {t : Ident} {x x' : Entity}
    (hs' : s'.Shaped st) (hrel : Relocation s s' t x x') (hact : x'.isActive = true) :
    s'.Placed st x' :=
  hs'.placed x' (List.mem_of_find?_eq_some hrel.head) hact

end Store

/-! ## §2 The plan along a descendant's parent links -/

namespace Forest

open Store

variable {st : Settings} {s : Store} {x : Entity} {path : String} {level : Int}
  {rows : List Placement} {final : List (Ident × String × Int)}

/-- A descendant stands below its parent as stored, and the plan derives it below its parent
as planned. -/
theorem Plan.child_lookup (hs : s.Shaped st) (hplan : Plan st s x path level rows final)
    {D P : Entity} {p : Ident} (hdesc : D ∈ s.descendants x.id x.tenant)
    (hpar : D.parent = some p) (hP : s.active? p x.tenant = some P) {v : String × Int}
    (hv : final.lookup p = some v) :
    D.path = P.path ++ st.separator ++ D.name ∧ D.level = P.level + 1 ∧
      final.lookup D.id = some (st.childOf v.1 v.2 D.name) := by
  obtain ⟨hm, hact, -⟩ := mem_descendants hdesc
  simp only [Entity.activeIn, Bool.and_eq_true, beq_iff_eq] at hact
  obtain ⟨q, hq, hpath, hlevel⟩ := (hs.placed D hm hact.2).child hpar
  rw [hact.1, hP] at hq
  cases hq
  obtain ⟨p', pv, hpar', hpv, hval, -, -⟩ := hplan.planned D hdesc
  rw [hpar] at hpar'
  cases hpar'
  rw [hv] at hpv
  cases hpv
  exact ⟨hpath, hlevel, hval⟩

/-- In a shaped store, the plan for head `x` at `path` and `level` derives for every unit that
descends from `x` the values of the head followed by that unit's path suffix below the head,
at the same depth below the head. -/
theorem Plan.lookup_of_descends (hs : s.Shaped st) (hplan : Plan st s x path level rows final)
    (hx : s.active? x.id x.tenant = some x) {d : Ident} (hd : s.Descends x.tenant d x.id) :
    ∃ D, s.active? d x.tenant = some D ∧ D ∈ s.descendants x.id x.tenant ∧
      ∃ suffix, D.path = x.path ++ suffix ∧
        final.lookup d = some (path ++ suffix, level + (D.level - x.level)) := by
  -- a unit descending from `x` is not `x`, and is a descendant once its parent is
  have step : ∀ {d : Ident} {D : Entity} {p : Ident}, s.active? d x.tenant = some D →
      D.parent = some p → s.Descends x.tenant d x.id →
      (p = x.id ∨ ∃ P ∈ s.descendants x.id x.tenant, P.id = p) →
      D ∈ s.descendants x.id x.tenant := by
    intro d D p hD hpar hdx hp
    obtain ⟨hm, hid, ht, ha⟩ := mem_of_active? hD
    have hne : D.id ≠ x.id := by
      rw [hid]
      rintro rfl
      exact hs.not_descends_self hdx
    exact mem_descendants_of_parent hm (by simp [Entity.activeIn, ht, ha]) hne hpar hp
  -- the induction climbs from `d`; the head it arrives at is kept fixed as `x.id`
  generalize hxa : x.id = a at hd
  induction hd with
  | @parent d a link =>
    subst hxa
    obtain ⟨D, hD, hpar⟩ := link
    have hdesc := step hD hpar (.parent ⟨D, hD, hpar⟩) (.inl rfl)
    have hid := (mem_of_active? hD).2.1
    -- stored below `x`, planned below the head's new values
    obtain ⟨hpath, hlevel, hval⟩ := hplan.child_lookup hs hdesc hpar hx hplan.headValue
    refine ⟨D, hD, hdesc, st.separator ++ D.name, by rw [hpath, String.append_assoc], ?_⟩
    rw [← hid, hval]
    simp only [Settings.childOf, String.append_assoc, Option.some.injEq, Prod.mk.injEq, true_and]
    omega
  | @climb d p a link hrest ih =>
    subst hxa
    obtain ⟨P, hP, hPdesc, sP, hPpath, hPlook⟩ := ih rfl
    obtain ⟨D, hD, hpar⟩ := link
    have hdesc := step hD hpar (.climb ⟨D, hD, hpar⟩ hrest)
      (.inr ⟨P, hPdesc, (mem_of_active? hP).2.1⟩)
    have hid := (mem_of_active? hD).2.1
    -- stored below `P`, planned below `P`'s planned values
    obtain ⟨hpath, hlevel, hval⟩ := hplan.child_lookup hs hdesc hpar hP hPlook
    refine ⟨D, hD, hdesc, sP ++ st.separator ++ D.name, ?_, ?_⟩
    · rw [hpath, hPpath]
      simp only [String.append_assoc]
    · rw [← hid, hval]
      simp only [Settings.childOf, String.append_assoc, Option.some.injEq, Prod.mk.injEq,
        true_and]
      omega

/-! ## §3 A commit of a planned cascade -/

variable {f : Forest} {rows : List Placement}

/-- A planned cascade writes at most one row per unit. -/
theorem planCascade_nodup (hk : f.store.Keyed) (hc : f.planCascade x path level = .ok rows) :
    (rows.map Placement.id).Nodup := by
  obtain ⟨rest, hrows, hsub, -⟩ := planRows_rows hc
  simp only [List.reverse_nil, List.nil_append] at hrows
  subst hrows
  exact hsub.nodup hk.nodup_descendants

/-- A planned cascade raises the version of a stored unit exactly when it moves the unit:
the planner drops the rows that would leave a unit where it is. -/
theorem planCascade_version (hk : f.store.Keyed) (hc : f.planCascade x path level = .ok rows)
    {d : Entity} (hd : d ∈ f.store.entities) :
    (rowsApplied rows d).version =
      if (rowsApplied rows d).path = d.path ∧ (rowsApplied rows d).level = d.level then d.version
      else d.version + 1 := by
  by_cases hmem : d.id ∈ rows.map Placement.id
  · obtain ⟨r, hr, hrd⟩ := List.mem_map.1 hmem
    rw [rowsApplied_of_mem (planCascade_nodup hk hc) hr hrd]
    -- the row was planned because it moves its unit
    obtain ⟨rest, hrows, -, hrest⟩ := planRows_rows hc
    simp only [List.reverse_nil, List.nil_append] at hrows
    subst hrows
    obtain ⟨n, hn, hnid, -, hmoved⟩ := hrest r hr
    have hnd : n = d := hk.eq_of_id_eq (mem_descendants hn).1 hd (hnid.symm.trans hrd)
    subst hnd
    have hmoved' : ¬ ((r.apply n).path = n.path ∧ (r.apply n).level = n.level) := by
      simpa only [Placement.apply, not_and_or] using hmoved
    rw [if_neg hmoved']
    rfl
  · rw [rowsApplied_of_not_mem hmem]
    simp

/-- **A commit relocates the subtree.** Committing to the active head `x` of a shaped store an
edit that gives it `path` and `level`, with the cascade planned for them, returns the edited
head and relocates the subtree of `x` to it. -/
theorem relocation_of_commit (hs : f.store.Shaped f.settings)
    (hx : f.store.active? x.id x.tenant = some x) (hlevel : 0 ≤ level)
    (hc : f.planCascade x path level = .ok rows) {c : Change} {claim : Option NameClaim}
    {e : Entity} {s' : Store} (hcid : c.id = x.id) (hrows : c.cascade = rows)
    (hpath : (stamp c.edit x).path = path) (hlev : (stamp c.edit x).level = level)
    (h : (Store.commit c claim).run f.store = .ok e s') :
    e = stamp c.edit x ∧ Relocation f.store s' x.tenant x (stamp c.edit x) := by
  have hk := hs.keyed
  obtain ⟨-, head, hhead, rfl, rfl⟩ := commit_ok h
  rw [hcid, hrows] at hhead ⊢
  obtain ⟨final, hplan⟩ := planCascade_ok hk hc hlevel
  have hxm := (mem_of_active? hx).1
  have hxr := hplan.head_not_mem_rows
  -- the head gets its edit, every other unit its rows
  set φ : Entity → Entity := fun e => if e.id = x.id then stamp c.edit x else rowsApplied rows e
    with hφ
  have hφid : ∀ e, (φ e).id = e.id := by
    intro e
    by_cases hex : e.id = x.id <;> simp [hφ, hex]
  have hents := hk.entities_relocated (c := c.edit) hxm hxr
  have hfind := find?_of_map hφid hents
  have hφ_ne : ∀ e : Entity, e.id ≠ x.id → φ e = rowsApplied rows e := by
    intro e hex
    simp [hφ, hex]
  rw [find?_writeRows, hk.find?_of_mem hxm, Option.map_some, rowsApplied_of_not_mem hxr] at hhead
  cases hhead
  refine ⟨rfl, ⟨?head, ?subtree, ?others, ?ids, ?issued⟩⟩
  case head =>
    rw [hfind, hk.find?_of_mem hxm, Option.map_some]
    simp [hφ]
  case subtree =>
    intro d hd hda hdx
    obtain ⟨D, hD, hdesc, suffix, hsuffix, hlook⟩ := hplan.lookup_of_descends hs hx hdx
    obtain ⟨hDm, hDid, -, -⟩ := mem_of_active? hD
    have hDd : D = d := hk.eq_of_id_eq hDm hd hDid
    subst hDd
    have hne : D.id ≠ x.id := (mem_descendants hdesc).2.2
    -- the row applied to `D` puts it where the plan derived it
    obtain ⟨p, pv, -, -, hval, -, hrow⟩ := hplan.planned D hdesc
    rw [hlook, Option.some.injEq] at hval
    rw [← hval, Prod.mk.injEq] at hrow
    refine ⟨rowsApplied rows D, suffix, ?_, hsuffix, ?_, ?_, planCascade_version hk hc hd,
      relocated_rowsApplied rows D⟩
    · rw [hfind, hk.find?_of_mem hd, Option.map_some, hφ_ne D hne]
    · rw [hrow.1, hpath]
    · rw [hrow.2, hlev]
  case others =>
    intro e he hex hout
    rw [hfind, hk.find?_of_mem he, Option.map_some, hφ_ne e hex]
    refine congrArg some (rowsApplied_of_not_mem fun hm => hout ?_)
    -- a row names a descendant, which descends from the head
    obtain ⟨r, hr, hre⟩ := List.mem_map.1 hm
    obtain ⟨n, hn, hnr⟩ := List.mem_map.1 (hplan.rowsBelow r hr)
    have hne : n = e := hk.eq_of_id_eq (mem_descendants hn).1 he (hnr.trans hre)
    subst hne
    exact ⟨(mem_descendants hn).2.1, hk.descends_of_mem_descendants hn⟩
  case ids =>
    rw [hents, List.map_map]
    exact List.map_congr_left fun e _ => hφid e
  case issued =>
    simp [Store.modify]

end Forest

/-! ## §4 Renames and moves -/

/-- A name that passes validation is the given name, trimmed. -/
theorem Settings.validateName_ok {st : Settings} {name name' : String}
    (h : st.validateName name = .ok name') : name' = Text.trim name := by
  unfold Settings.validateName at h
  dsimp only at h
  split_ifs at h
  exact (Except.ok.inj h).symm

namespace Forest

open Store

variable {f f' : Forest} {t id : Ident} {actor : Option Ident} {X X' : Entity}

/-- A rename to a new name gives the unit the trimmed name, the path and level derived from
its parent, a raised version and the actor, and relocates its subtree. -/
theorem rename_relocates (hs : f.store.Shaped f.settings) (hX : f.store.active? id t = some X)
    {newName : String} (hname : X.name ≠ Text.trim newName)
    (h : (rename t actor id newName).run f = .ok X' f') :
    X' = { X with
      name := Text.trim newName, path := X'.path, level := X'.level, version := X.version + 1,
      updatedBy := if actor.isSome then actor else X.updatedBy } ∧
    Relocation f.store f'.store t X X' := by
  obtain ⟨name, node, hn, hnode, hcases⟩ := rename_ok h
  obtain rfl : node = X := Option.some.inj ((getActive_ok hnode).symm.trans hX)
  obtain rfl := Settings.validateName_ok hn
  obtain ⟨hsame, -, -⟩ | ⟨-, -, parent, path, level, cascade, hp, hd, hc, s', hcommit, rfl⟩ :=
    hcases
  · exact absurd hsame hname
  obtain ⟨-, rfl, rfl, -⟩ := mem_of_active? hX
  have hlevel := hs.derive_level_nonneg (currentParent_ok hp) hd
  obtain ⟨rfl, hrel⟩ := relocation_of_commit hs hX hlevel hc rfl rfl rfl rfl hcommit
  exact ⟨rfl, hrel⟩

/-- A move to a new parent gives the unit that parent, the path and level derived from it,
a raised version and the actor, and relocates its subtree. -/
theorem move_relocates (hs : f.store.Shaped f.settings) (hX : f.store.active? id t = some X)
    {target : Option Ident} (htarget : X.parent ≠ target)
    (h : (move t actor id target).run f = .ok X' f') :
    X' = { X with
      parent := target, path := X'.path, level := X'.level, version := X.version + 1,
      updatedBy := if actor.isSome then actor else X.updatedBy } ∧
    Relocation f.store f'.store t X X' := by
  obtain ⟨node, parent, hnode, hdest, hcases⟩ := move_ok h
  obtain rfl : node = X := Option.some.inj ((getActive_ok hnode).symm.trans hX)
  obtain ⟨hsame, -, -⟩ | ⟨-, path, level, cascade, hd, -, -, hc, s', hcommit, rfl⟩ := hcases
  · exact absurd hsame htarget
  obtain ⟨-, rfl, rfl, -⟩ := mem_of_active? hX
  have hlevel := hs.derive_level_nonneg (destination_ok hdest).1 hd
  obtain ⟨rfl, hrel⟩ := relocation_of_commit hs hX hlevel hc rfl rfl rfl rfl hcommit
  exact ⟨rfl, hrel⟩

/-- **A rename or a move relocates one subtree.** In a reachable forest, a rename of the active
unit `X` of tenant `t` to a new name, or a move of it to a new parent, that succeeds returns
`X'`: `X` with the trimmed name (rename) or the new parent (move), the path and level derived
from its parent, the version raised by one, and the actor recorded when there is one. The
subtree of `X` is relocated to `X'`: each active descendant keeps its path suffix and its depth
below the head, with its version raised exactly when it moved, every other unit is as it was,
and no unit is added. -/
theorem rename_and_move_relocate_subtree {st : Settings} (hf : Reachable st f)
    (hX : f.store.active? id t = some X) :
    (∀ newName, X.name ≠ Text.trim newName → (rename t actor id newName).run f = .ok X' f' →
      X' = { X with
        name := Text.trim newName, path := X'.path, level := X'.level, version := X.version + 1,
        updatedBy := if actor.isSome then actor else X.updatedBy } ∧
      f'.store.Placed st X' ∧ Relocation f.store f'.store t X X') ∧
    (∀ target, X.parent ≠ target → (move t actor id target).run f = .ok X' f' →
      X' = { X with
        parent := target, path := X'.path, level := X'.level, version := X.version + 1,
        updatedBy := if actor.isSome then actor else X.updatedBy } ∧
      f'.store.Placed st X' ∧ Relocation f.store f'.store t X X') := by
  have hst : f.settings = st := hf.settings_eq
  subst hst
  have hs := hf.shaped
  have hact := (mem_of_active? hX).2.2.2
  refine ⟨fun newName hname h => ?_, fun target htarget h => ?_⟩
  · obtain ⟨hX', hrel⟩ := rename_relocates hs hX hname h
    refine ⟨hX', hrel.placed (shaped_rename hs h) ?_, hrel⟩
    rw [hX']
    exact hact
  · obtain ⟨hX', hrel⟩ := move_relocates hs hX htarget h
    refine ⟨hX', hrel.placed (shaped_move hs h) ?_, hrel⟩
    rw [hX']
    exact hact

/-- A root `Acme` with a child `Sales` and a grandchild `East`, created under the default
settings. -/
def acmeEastForest : Forest :=
  (((Forest.empty {}).after
    { tenant := Ident.ofNat 7, request := .create { name := "Acme" } }).after
    { tenant := Ident.ofNat 7,
      request := .create { name := "Sales", parent := some (Ident.serial 1) } }).after
    { tenant := Ident.ofNat 7,
      request := .create { name := "East", parent := some (Ident.serial 2) } }

/-- Renaming `Acme` to `Acme Corp` relocates `Sales` and `East` below the new name. -/
theorem acme_rename_relocates_subtree :
    ∃ X X' f', Reachable {} acmeEastForest ∧
      acmeEastForest.store.active? (Ident.serial 1) (Ident.ofNat 7) = some X ∧
      X.name ≠ Text.trim "Acme Corp" ∧
      (rename (Ident.ofNat 7) none (Ident.serial 1) "Acme Corp").run acmeEastForest =
        .ok X' f' ∧
      f'.store.Placed {} X' ∧ Relocation acmeEastForest.store f'.store (Ident.ofNat 7) X X' := by
  have hreach : Reachable {} acmeEastForest := .after _ (.after _ (.after _ .empty))
  have hok : (match (rename (Ident.ofNat 7) none (Ident.serial 1) "Acme Corp").run
      acmeEastForest with
      | .ok _ _ => true
      | .error _ _ => false) = true := by decide +kernel
  revert hok
  cases hrun : (rename (Ident.ofNat 7) none (Ident.serial 1) "Acme Corp").run acmeEastForest with
  | error e f' => simp
  | ok X' f' =>
    intro _
    have hX : acmeEastForest.store.active? (Ident.serial 1) (Ident.ofNat 7) = some _ := rfl
    refine ⟨_, X', f', hreach, hX, by decide, rfl, ?_⟩
    exact ((rename_and_move_relocate_subtree hreach hX).1 "Acme Corp" (by decide) hrun).2

end Forest

end TenantForest

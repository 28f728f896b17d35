import TenantForest.Proofs.Relinking

/-!
# Moves forget their detours

A successful move of the unit `x` below `target` relinks the store below `target`
(`relinked_of_move`): it sets the parent link of `x` to `target` and changes no other link, no
name and no state. Relinking below a target forgets the links set before
(`Store.Relinked.trans`), so a run of successful moves of `x` leaves the store it started from
relinked below the last target (`Moves.relinked`).

Two results follow, for every reachable forest under a depth bound between 0 and the largest
32-bit integer:

* **detours are forgotten**: when moves of `x` below `T₁, …, Tₖ` all succeed in turn, the single
  move below `Tₖ` succeeds too, and the two stores hold the same units in the same order, each
  with the same fields but its version and last writer (`moves_forget_detours`). The single move
  passes every check of the decision list because the end of the run passes it: there the
  target is an active unit that does not descend from `x`, and `x` and its descendants stand
  within the depth bound with no clash of names, all of which reads links other than that of
  `x` (`MoveVerdict.ok_of_relinked`). Both stores are shaped, with the same links and names, so
  they agree on paths and levels (`Store.Shaped.forall₂_restamped`).
* **a move made again changes nothing**: once `x` stands below `target`, moving it there again
  succeeds and leaves the forest as it is, versions included.

  §1 One move relinks the store.
  §2 A relinked forest passes the checks of a move.
  §3 Runs of moves.
-/

namespace TenantForest

/-! ## §1 One move relinks the store -/

namespace Store

variable {s s' : Store} {st : Settings} {t x : Ident} {target : Option Ident} {X X' : Entity}

/-- A root destination that passes resolves to nothing. -/
theorem Destined.of_none {q : Option Entity} (h : s.Destined t x none q) : q = none := by
  cases q with
  | none => rfl
  | some _ => exact (h : False).elim

/-- A destination below `p` that passes is an active unit of the tenant, other than `x` and not
below it. -/
theorem Destined.of_some {p : Ident} {q : Option Entity} (h : s.Destined t x (some p) q) :
    ∃ P, q = some P ∧ p ≠ x ∧ s.active? p t = some P ∧ ¬ s.Descends t p x := by
  cases q with
  | none => exact (h : False).elim
  | some P => exact ⟨P, rfl, h⟩

/-- A destination resolves to one unit at most. -/
theorem Destined.unique {q q' : Option Entity} (h : s.Destined t x target q)
    (h' : s.Destined t x target q') : q' = q := by
  cases target with
  | none => rw [h.of_none, h'.of_none]
  | some p =>
    obtain ⟨P, rfl, -, hP, -⟩ := h.of_some
    obtain ⟨P', rfl, -, hP', -⟩ := h'.of_some
    rw [hP] at hP'
    exact hP'.symm

/-- A relocation of the subtree of `X` that writes `X` relinked below `target` relinks the
store: the descendants are placed again and every other unit is as it was. -/
theorem Relocation.relinked (hs : s.Shaped st) (hX : s.active? x t = some X)
    (hrel : Relocation s s' t X X') (hhead : X.Relinked x target X') :
    s.Relinked x target s' := by
  obtain ⟨hXm, rfl, -, -⟩ := mem_of_active? hX
  refine ⟨hrel.ids, fun y => ?_⟩
  cases hy : s.find? y with
  | none =>
    -- both stores hold the same identifiers, so neither finds `y`
    cases hy' : s'.find? y with
    | none => exact .none
    | some e' =>
      have hid : e'.id = y := by simpa using List.find?_some hy'
      have hmem : y ∈ s.entities.map Entity.id :=
        hrel.ids ▸ hid ▸ List.mem_map_of_mem (List.mem_of_find?_eq_some hy')
      obtain ⟨e, he, rfl⟩ := List.mem_map.1 hmem
      rw [hs.keyed.find?_of_mem he] at hy
      cases hy
  | some e =>
    obtain ⟨he, rfl⟩ := hs.keyed.find?_eq_some_iff.1 hy
    by_cases hex : e.id = X.id
    · rw [hs.keyed.eq_of_id_eq he hXm hex, hrel.head]
      exact .some hhead
    by_cases hsub : e.activeIn t = true ∧ s.Descends t e.id X.id
    · obtain ⟨d', -, hd', -, -, -, -, hrelo⟩ := hrel.subtree e he hsub.1 hsub.2
      have hact : e.isActive = true := by
        have hin := hsub.1
        simp only [Entity.activeIn, Bool.and_eq_true] at hin
        exact hin.2
      rw [hd']
      exact .some (Entity.Relinked.of_reframed (hrelo.reframed hact) hex)
    · rw [hrel.others e he hex hsub]
      exact .some (Entity.Relinked.self fun h => absurd h hex)

end Store

namespace Forest

open Store

variable {f g f' : Forest} {st : Settings} {t x : Ident} {actor target : Option Ident}
  {e : Entity}

/-- The forest a successful move leaves is reachable. -/
theorem Reachable.of_move (hf : Reachable st f) (h : (move t actor x target).run f = .ok e f') :
    Reachable st f' := by
  have hafter : f.after { tenant := t, actor := actor, request := .move x target } = f' := by
    refine after_of_ok (r := .unit e) ?_
    simp [handle, h]
  exact hafter ▸ .after _ hf

/-- A successful move of `x` below `target` found `x` active, and relinks the store below
`target`. -/
theorem relinked_of_move (hs : f.store.Shaped f.settings)
    (h : (move t actor x target).run f = .ok e f') :
    (f.store.active? x t).isSome ∧ f.store.Relinked x target f'.store := by
  obtain ⟨X, parent, hget, -, hcases⟩ := move_ok h
  have hX := getActive_ok hget
  obtain ⟨-, hXid, -, hXact⟩ := mem_of_active? hX
  refine ⟨by simp [hX], ?_⟩
  by_cases htarget : X.parent = target
  · -- the unit is below the target already: nothing changes
    obtain ⟨-, -, rfl⟩ := hcases.resolve_right fun h => h.1 htarget
    refine Relinked.self fun e he => ?_
    rw [Option.eq_some_of_filter_eq_some hX, Option.some.injEq] at he
    rw [← he, htarget]
  · obtain ⟨hX', hrel⟩ := move_relocates hs hX htarget h
    refine hrel.relinked hs hX ⟨?_, fun hoff => ?_⟩
    · rw [if_pos hXid, hX']
    · -- the head is active
      have hoff : X.isActive = false := hoff
      rw [hXact] at hoff
      cases hoff

/-- A move that finds `x` below the target already leaves the forest as it is. -/
theorem move_of_parent_eq {X : Entity} (hX : f.store.active? x t = some X)
    (hpar : X.parent = target) (h : (move t actor x target).run f = .ok e f') : f' = f := by
  obtain ⟨node, parent, hget, -, hcases⟩ := move_ok h
  rw [getActive_ok hget, Option.some.injEq] at hX
  subst hX
  obtain ⟨-, -, rfl⟩ := hcases.resolve_right fun h => h.1 hpar
  rfl

/-! ## §2 A relinked forest passes the checks of a move

Throughout, `g` is a reachable forest whose store is that of `f` relinked below `target`, and `X`
and `Xg` are the unit `x` in each: `Xg` has `target` for parent. -/

section Checks

variable {X Xg : Entity}

/-- The target is a destination that passes, from which `x` gets the level it has in `g`: the
target's root path avoids `x`, so its level is the same in both forests. -/
theorem destined_of_relinked (hf : Reachable st f) (hg : Reachable st g)
    (hm : f.store.Relinked x target g.store) (hX : f.store.active? x t = some X)
    (hXg : g.store.active? x t = some Xg) (hrel : X.Relinked x target Xg) :
    ∃ q, f.store.Destined t x target q ∧ (st.derive X.name q).2 = Xg.level := by
  have hpar : Xg.parent = target := hrel.parent_eq_target (mem_of_active? hX).2.1
  obtain ⟨hXgm, -, -, hXgact⟩ := mem_of_active? hXg
  cases target with
  | none => exact ⟨none, trivial, ((hg.shaped.placed Xg hXgm hXgact).root hpar).2.symm⟩
  | some p =>
    obtain ⟨hpx, hnd, Pg, hPg, hlevel⟩ := hg.shaped.parent_active hXg hpar
    obtain ⟨P, hP, -⟩ := hm.active?_some_of_ne hpx hPg
    have hndf : ¬ f.store.Descends t p x := fun hd => hnd (hd.relinked hf.shaped hm)
    have hPlevel := (hm.place_eq hf.shaped hg.shaped rfl hpx hndf hP hPg).2
    refine ⟨some P, ⟨hpx, hP, hndf⟩, ?_⟩
    simp only [Settings.derive, Settings.childOf]
    omega

/-- No name clashes at the target: a clash would be one of two distinct active units of `g`. -/
theorem not_nameClash_of_relinked (hf : Reachable st f) (hg : Reachable st g)
    (hm : f.store.Relinked x target g.store) (hX : f.store.active? x t = some X)
    (hXg : g.store.active? x t = some Xg) (hrel : X.Relinked x target Xg) :
    ¬ f.NameClash x X target := by
  rintro ⟨b, hb, hbact, hbx, hclash⟩
  have hbA : f.store.active? b.id b.tenant = some b :=
    hf.keyed.active?_of_mem hb (by simp [Entity.activeIn, hbact])
  obtain ⟨bg, hbg, hbb⟩ := hm.active?_some hbA
  have hbr := hbb.reframed hbx
  obtain ⟨hbgm, hbgid, -, hbgact⟩ := mem_of_active? hbg
  obtain ⟨hXgm, hXgid, -, hXgact⟩ := mem_of_active? hXg
  rw [hf.settings_eq,
    ← NamePolicy.clash_congr hbr.namedAlike (hrel.namedAlike_of_eq (mem_of_active? hX).2.1)]
    at hclash
  exact hg.namesUnique bg hbgm Xg hXgm hbgact hXgact (by rw [hbgid, hXgid]; exact hbx) hclash

/-- Every active descendant of `x` would sit within the depth bound: below `x` it is as deep as
its counterpart in `g`. -/
theorem subtree_within_of_relinked (hf : Reachable st f) (hg : Reachable st g)
    (hm : f.store.Relinked x target g.store) (hX : f.store.active? x t = some X)
    (hXg : g.store.active? x t = some Xg) :
    ∀ D ∈ f.store.activeOf t, f.store.Descends t D.id x →
      Xg.level + (D.level - X.level) ≤ st.maxDepth := by
  intro D hD hdesc
  have hDx : D.id ≠ x := fun h => hf.shaped.not_descends_self (h ▸ hdesc)
  obtain ⟨hDm, hDin⟩ := mem_activeOf.1 hD
  have hDA : f.store.active? D.id t = some D := hf.keyed.active?_of_mem hDm hDin
  obtain ⟨Dg, hDg, -⟩ := hm.active?_some hDA
  have hsub := hdesc.hangsBelow.level_sub_eq hf.shaped hg.shaped hm hDx hDA hDg hX hXg
  have hbound := (hg.shaped.bounded Dg (mem_of_active? hDg).1 (mem_of_active? hDg).2.2.2).2
  omega

/-- A verdict on the move of an active `x` below `target` in `f` accepts the move, when a
reachable `g` relinks `f` below `target`: each refusal contradicts what `g` shows. -/
theorem MoveVerdict.ok_of_relinked {r : EStateM.Result Fault Forest Entity}
    (h : MoveVerdict f t x target r) (hf : Reachable st f) (hg : Reachable st g)
    (hm : f.store.Relinked x target g.store) (hx : (f.store.active? x t).isSome) :
    ∃ e f', r = .ok e f' := by
  obtain ⟨X, hX⟩ := Option.isSome_iff_exists.1 hx
  obtain ⟨Xg, hXg, hrel⟩ := hm.active?_some hX
  obtain ⟨q, hq, hlevel⟩ := destined_of_relinked hf hg hm hX hXg hrel
  have hXgb := (hg.shaped.bounded Xg (mem_of_active? hXg).1 (mem_of_active? hXg).2.2.2).2
  have hst := hf.settings_eq
  cases h with
  | missing hnone =>
    rw [hX] at hnone
    cases hnone
  | underItself =>
    obtain ⟨-, -, hxx, -⟩ := hq.of_some
    exact absurd rfl hxx
  | parentElsewhere _ _ hPnone _ _ =>
    obtain ⟨P, -, -, hP, -⟩ := hq.of_some
    rw [hP] at hPnone
    cases hPnone
  | parentMissing _ _ hno =>
    obtain ⟨P, -, -, hP, -⟩ := hq.of_some
    have hPnone := hno t
    rw [hP] at hPnone
    cases hPnone
  | underDescendant _ _ _ hd =>
    obtain ⟨-, -, -, -, hnd⟩ := hq.of_some
    exact absurd hd hnd
  | unchanged => exact ⟨_, _, rfl⟩
  | tooDeep hX' hq' _ hgt =>
    rw [hX, Option.some.injEq] at hX'
    subst hX'
    rw [hq.unique hq', hst, hlevel] at hgt
    omega
  | nameTaken hX' _ _ _ hclash =>
    rw [hX, Option.some.injEq] at hX'
    subst hX'
    exact absurd hclash (not_nameClash_of_relinked hf hg hm hX hXg hrel)
  | subtreeTooDeep hX' hq' _ _ _ hD hdesc hgt =>
    rw [hX, Option.some.injEq] at hX'
    subst hX'
    rw [hq.unique hq', hst, hlevel] at hgt
    have := subtree_within_of_relinked hf hg hm hX hXg _ hD hdesc
    omega
  | moved => exact ⟨_, _, rfl⟩

/-- A move of an active `x` below `target` succeeds in a reachable forest that a reachable forest
relinks below `target`, on behalf of anyone. -/
theorem move_ok_of_relinked (hf : Reachable st f) (hg : Reachable st g) (h0 : 0 ≤ st.maxDepth)
    (h1 : st.maxDepth < 2 ^ 31 - 1) (hm : f.store.Relinked x target g.store)
    (hx : (f.store.active? x t).isSome) (actor : Option Ident) :
    ∃ e f', (move t actor x target).run f = .ok e f' := by
  have hst := hf.settings_eq
  have verdict := move_verdict (t := t) (hst ▸ hf.shaped) (hst ▸ h0) (hst ▸ h1) actor x target
  exact verdict.ok_of_relinked hf hg hm hx

end Checks

/-! ## §3 Runs of moves -/

/-- `f` reaches `f'` by moves of the unit `x` of tenant `t` below the targets of a list in turn,
each on behalf of its actor and each succeeding. -/
inductive Moves (t x : Ident) : Forest → List (Option Ident × Option Ident) → Forest → Prop
  /-- No move leaves the forest as it is. -/
  | nil {f : Forest} : Moves t x f [] f
  /-- A move that succeeds, then the rest of the run. -/
  | cons {f f₁ f' : Forest} {actor target : Option Ident} {e : Entity}
      {rest : List (Option Ident × Option Ident)} :
      (move t actor x target).run f = .ok e f₁ → Moves t x f₁ rest f' →
      Moves t x f ((actor, target) :: rest) f'

/-- A run of moves of `x` that ends with a move below `target` found `x` active, and leaves a
reachable forest whose store is the first one relinked below `target`. -/
theorem Moves.relinked (hf : Reachable st f) {steps : List (Option Ident × Option Ident)}
    (h : Moves t x f (steps ++ [(actor, target)]) f') :
    Reachable st f' ∧ (f.store.active? x t).isSome ∧ f.store.Relinked x target f'.store := by
  -- one step at a time: each move relinks its store, and relinkings compose to the last target
  induction steps generalizing f with
  | nil =>
    cases h with
    | cons hmove hrest =>
      cases hrest
      exact ⟨hf.of_move hmove, relinked_of_move (hf.settings_eq ▸ hf.shaped) hmove⟩
  | cons step steps ih =>
    cases h with
    | cons hmove hrest =>
      obtain ⟨hx, hm₁⟩ := relinked_of_move (hf.settings_eq ▸ hf.shaped) hmove
      obtain ⟨hf', -, hm⟩ := ih (hf.of_move hmove) hrest
      exact ⟨hf', hx, hm₁.trans hm⟩

/-- The single move below the last target of a run of moves succeeds, on behalf of anyone, and
leaves the units of the run's end, written again. -/
theorem Moves.direct_move_restamped (hf : Reachable st f) (h0 : 0 ≤ st.maxDepth)
    (h1 : st.maxDepth < 2 ^ 31 - 1) {steps : List (Option Ident × Option Ident)}
    (hrun : Moves t x f (steps ++ [(actor, target)]) f') (actor' : Option Ident) :
    ∃ e f'', (move t actor' x target).run f = .ok e f'' ∧
      List.Forall₂ Entity.Restamped f''.store.entities f'.store.entities := by
  obtain ⟨hf', hx, hm⟩ := hrun.relinked hf
  obtain ⟨e, f'', hmove⟩ := move_ok_of_relinked hf hf' h0 h1 hm hx actor'
  have hf'' := hf.of_move hmove
  obtain ⟨-, hm''⟩ := relinked_of_move (hf.settings_eq ▸ hf.shaped) hmove
  -- both stores relink the first below the last target, so they differ in stamps only
  refine ⟨e, f'', hmove, hf''.shaped.forall₂_restamped hf'.shaped rfl ?_ (hm''.of_common hm)⟩
  rw [hm.ids, hm''.ids]

/-- A move that succeeds, made again below the same target on behalf of anyone, succeeds and
leaves the forest as it is. -/
theorem move_again_leaves_forest (hf : Reachable st f) (h0 : 0 ≤ st.maxDepth)
    (h1 : st.maxDepth < 2 ^ 31 - 1) (hmove : (move t actor x target).run f = .ok e f')
    (actor' : Option Ident) : ∃ e', (move t actor' x target).run f' = .ok e' f' := by
  have hf' := hf.of_move hmove
  obtain ⟨hx, hm⟩ := relinked_of_move (hf.settings_eq ▸ hf.shaped) hmove
  obtain ⟨X, hX⟩ := Option.isSome_iff_exists.1 hx
  obtain ⟨X', hX', hrel⟩ := hm.active?_some hX
  have hpar : X'.parent = target := hrel.parent_eq_target (mem_of_active? hX).2.1
  -- `f'` is relinked below `target` as itself, so the move passes and changes nothing
  have hself : f'.store.Relinked x target f'.store := Relinked.self fun e he => by
    rw [Option.eq_some_of_filter_eq_some hX', Option.some.injEq] at he
    rw [← he, hpar]
  obtain ⟨e', f'', hagain⟩ :=
    move_ok_of_relinked hf' hf' h0 h1 hself (Option.isSome_iff_exists.2 ⟨X', hX'⟩) actor'
  obtain rfl := move_of_parent_eq hX' hpar hagain
  exact ⟨e', hagain⟩

/-- **Moves forget their detours.** In a reachable forest, under a depth bound between 0 and the
largest 32-bit integer:

* when moves of the unit `x` of tenant `t` below targets `T₁, …, Tₖ` succeed in turn, on
  behalf of any actors, the single move of `x` below `Tₖ` succeeds, on behalf of anyone, and
  the forest it leaves holds the same units as the run's, in the same order, each with the same
  fields but its version and last writer;
* a move that succeeds, made again below the same target on behalf of anyone, succeeds and
  leaves the forest as it is, versions included. -/
theorem moves_forget_detours (hf : Reachable st f) (h0 : 0 ≤ st.maxDepth)
    (h1 : st.maxDepth < 2 ^ 31 - 1) (t x : Ident) :
    (∀ steps actor target f', Moves t x f (steps ++ [(actor, target)]) f' →
      ∀ actor', ∃ e f'', (move t actor' x target).run f = .ok e f'' ∧
        List.Forall₂ Entity.Restamped f''.store.entities f'.store.entities) ∧
    ∀ actor target e f₁, (move t actor x target).run f = .ok e f₁ →
      ∀ actor', ∃ e', (move t actor' x target).run f₁ = .ok e' f₁ :=
  ⟨fun _ _ _ _ hrun => hrun.direct_move_restamped hf h0 h1,
    fun _ _ _ _ hmove => move_again_leaves_forest hf h0 h1 hmove⟩

/-- In the forest of `Acme`, `Sales` and `East`, the moves of `East` forget their detours. -/
theorem east_moves_forget_detours :
    Reachable {} acmeEastForest ∧ (0 : Int) ≤ ({} : Settings).maxDepth ∧
      ({} : Settings).maxDepth < 2 ^ 31 - 1 ∧
      (∀ steps actor target f', Moves (Ident.ofNat 7) (Ident.serial 3) acmeEastForest
          (steps ++ [(actor, target)]) f' →
        ∀ actor', ∃ e f'',
          (move (Ident.ofNat 7) actor' (Ident.serial 3) target).run acmeEastForest =
            .ok e f'' ∧
          List.Forall₂ Entity.Restamped f''.store.entities f'.store.entities) ∧
      ∀ actor target e f₁,
        (move (Ident.ofNat 7) actor (Ident.serial 3) target).run acmeEastForest = .ok e f₁ →
        ∀ actor', ∃ e', (move (Ident.ofNat 7) actor' (Ident.serial 3) target).run f₁ = .ok e' f₁ :=
  have hreach : Reachable {} acmeEastForest := .after _ (.after _ (.after _ .empty))
  ⟨hreach, by decide, by decide,
    moves_forget_detours hreach (by decide) (by decide) (Ident.ofNat 7) (Ident.serial 3)⟩

/-- Moving `East` below `Acme` and back below `Sales` returns every unit to its place: only the
version of `East` tells the detour, raised once per move. -/
example : (match (move (Ident.ofNat 7) none (Ident.serial 3) (some (Ident.serial 1))).run
      acmeEastForest with
    | .ok _ f₁ =>
      match (move (Ident.ofNat 7) none (Ident.serial 3) (some (Ident.serial 2))).run f₁ with
      | .ok _ f₂ => some (f₂.store.entities.map fun e => (e.parent, e.path, e.level, e.version))
      | .error _ _ => none
    | .error _ _ => none) =
    some [(none, "Acme", 0, 1), (some (Ident.serial 1), "Acme > Sales", 1, 1),
      (some (Ident.serial 2), "Acme > Sales > East", 2, 3)] := by
  decide +kernel

end Forest

end TenantForest

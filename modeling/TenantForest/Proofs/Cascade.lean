import TenantForest.Proofs.Descendants
import TenantForest.Forest.Cascade

/-!
# What a cascade plan says

`Forest.planRows` reads the units of a cascade in order, each against the values derived
so far, and derives its new path and level from its parent's. Read front to back over a
list whose units come parents first from the values known at the start, a plan that
succeeds has

* derived a value for every unit, from the value of its parent and its own name, within
  the maximum depth (and at a level above zero, when the known levels are not negative);
* left the values known at the start as they were, for every other key;
* written rows only for units of the list, and after its rows every unit of the list
  stands at its derived path and level, whether a row moved it or it was there already.

A plan refused as too deep, from known values within the maximum depth, names the level one
past it (`planRows_tooDeep`).

For `Forest.planCascade` the list is the descendants of the head, and the values known at
the start are the head's new path and level.

  §1 Derived values — three facts about `List.lookup` on the derived values.
  §2 Plans — the specification of `planRows`, by induction on the units.
  §3 The cascade of a head.
-/

namespace TenantForest

/-! ## §1 Derived values -/

section Lookup

variable {β : Type}

/-- A key other than the first is looked up in the rest. -/
theorem lookup_cons_of_ne {k k' : Ident} {v : β} {l : List (Ident × β)} (h : k ≠ k') :
    ((k', v) :: l).lookup k = l.lookup k := by
  simp only [List.lookup, beq_false_of_ne h]

/-- A key that is present is found. -/
theorem lookup_isSome_of_mem {k : Ident} {l : List (Ident × β)} (h : k ∈ l.map Prod.fst) :
    ∃ v, l.lookup k = some v := by
  induction l with
  | nil => cases h
  | cons kv l ih =>
    obtain ⟨k', v⟩ := kv
    by_cases hk : k = k'
    · exact ⟨v, by simp [List.lookup, hk]⟩
    · rw [lookup_cons_of_ne hk]
      exact ih (by simpa [hk] using h)

/-- What is found is a pair of the list. -/
theorem mem_of_lookup_eq_some {k : Ident} {v : β} {l : List (Ident × β)}
    (h : l.lookup k = some v) : (k, v) ∈ l := by
  induction l with
  | nil => cases h
  | cons kv l ih =>
    obtain ⟨k', v'⟩ := kv
    by_cases hk : k = k'
    · subst hk
      simp only [List.lookup, BEq.rfl, Option.some.injEq] at h
      simp [h]
    · rw [lookup_cons_of_ne hk] at h
      exact List.mem_cons_of_mem _ (ih h)

end Lookup

/-! ## §2 Plans -/

namespace Forest

open Store

variable {st : Settings}

/-- After a plan's rows, every unit of the plan stands where the plan derived it:
`Planned st final rest n` says that `n`'s parent has a derived value, that `n`'s derived
value comes from it and `n`'s name within the depth bound, and that the rows `rest` put
`n` there. -/
def Planned (st : Settings) (final : List (Ident × String × Int)) (rest : List Placement)
    (n : Entity) : Prop :=
  ∃ p pv, n.parent = some p ∧ final.lookup p = some pv ∧
    final.lookup n.id = some (st.childOf pv.1 pv.2 n.name) ∧
    (st.childOf pv.1 pv.2 n.name).2 ≤ st.maxDepth ∧
    ((rowsApplied rest n).path, (rowsApplied rest n).level) = st.childOf pv.1 pv.2 n.name

/-- A row for another unit does not change where a unit is planned to stand. -/
theorem Planned.cons_of_ne {final : List (Ident × String × Int)} {rest : List Placement}
    {n : Entity} {r : Placement} (h : Planned st final rest n) (hr : n.id ≠ r.id) :
    Planned st final (r :: rest) n := by
  obtain ⟨p, pv, hp, hpv, hv, hdepth, hrow⟩ := h
  refine ⟨p, pv, hp, hpv, hv, hdepth, ?_⟩
  have skip : rowsApplied (r :: rest) n = rowsApplied rest n := by
    simp only [rowsApplied, List.foldl_cons]
    rw [if_neg (by simpa using hr)]
  rw [skip]
  exact hrow

/-- The specification of a plan that succeeds, over units listed parents first from the
known values, with distinct identifiers none of which is known yet. -/
theorem planRows_ok {ns : List Entity} {derived : List (Ident × String × Int)}
    {acc rows : List Placement} (h : planRows st ns derived acc = .ok rows)
    (hp : ParentsFirst (derived.map Prod.fst) ns) (hnd : (ns.map Entity.id).Nodup)
    (hfresh : ∀ n ∈ ns, n.id ∉ derived.map Prod.fst) (hpos : ∀ d ∈ derived, 0 ≤ d.2.2) :
    ∃ final rest, rows = acc.reverse ++ rest ∧
      (∀ k, k ∉ ns.map Entity.id → final.lookup k = derived.lookup k) ∧
      (∀ k v, final.lookup k = some v → 0 ≤ v.2) ∧
      (∀ r ∈ rest, r.id ∈ ns.map Entity.id) ∧
      ∀ n ∈ ns, Planned st final rest n := by
  induction ns generalizing derived acc with
  | nil =>
    simp only [planRows, Except.ok.injEq] at h
    refine ⟨derived, [], by simp [h], fun _ _ => rfl, fun k v hv => ?_, by simp, by simp⟩
    exact hpos (k, v) (mem_of_lookup_eq_some hv)
  | cons n ns ih =>
    cases hp with
    | @cons _ _ _ p hpar hpmem hrest =>
    simp only [List.map_cons, List.nodup_cons, List.mem_map, not_exists, not_and] at hnd
    obtain ⟨pv, hpv⟩ := lookup_isSome_of_mem hpmem
    have hn : n.id ∉ derived.map Prod.fst := hfresh n List.mem_cons_self
    -- the parent is known, so the plan derives `n`'s value and checks its depth
    simp only [planRows, hpar, Option.bind_some, hpv] at h
    split at h
    · cases h
    rename_i hdepth
    have hlevel : (st.childOf pv.1 pv.2 n.name).2 ≤ st.maxDepth := by
      simp only [Settings.checkDepth] at hdepth
      split at hdepth
      · cases hdepth
      · omega
    have pvpos : 0 ≤ pv.2 := hpos (p, pv) (mem_of_lookup_eq_some hpv)
    set v := st.childOf pv.1 pv.2 n.name with hv
    set acc' := (if v.1 != n.path || v.2 != n.level then
      { id := n.id, expected := n.version, path := v.1, level := v.2 } :: acc else acc)
      with hacc'
    obtain ⟨final, rest, hrows, hkeep, hfpos, hrest_ids, hplanned⟩ :=
      ih h hrest hnd.2
        (fun m hm => by
          simp only [List.map_cons, List.mem_cons, not_or]
          exact ⟨fun he => hnd.1 m hm he, hfresh m (List.mem_cons_of_mem _ hm)⟩)
        (fun d hd => by
          rcases List.mem_cons.1 hd with rfl | hd
          · simp only [hv, Settings.childOf]
            omega
          · exact hpos d hd)
    -- `p` is known from the start and `n` is not among the later units
    have hp_final : final.lookup p = some pv := by
      rw [hkeep p (fun hm => ?_), lookup_cons_of_ne (fun he => hn (by rw [← he]; exact hpmem)), hpv]
      obtain ⟨m, hm, hmp⟩ := List.mem_map.1 hm
      exact hfresh m (List.mem_cons_of_mem _ hm) (hmp ▸ hpmem)
    have hn_final : final.lookup n.id = some v := by
      rw [hkeep n.id (fun hm => ?_), List.lookup, BEq.rfl]
      obtain ⟨m, hm, hmn⟩ := List.mem_map.1 hm
      exact hnd.1 m hm hmn
    have keep_rest : ∀ k, k ∉ (n :: ns).map Entity.id → final.lookup k = derived.lookup k := by
      intro k hk
      simp only [List.map_cons, List.mem_cons, not_or] at hk
      rw [hkeep k hk.2, lookup_cons_of_ne hk.1]
    by_cases moved : (v.1 != n.path || v.2 != n.level) = true
    · -- `n` moves: its row comes first among the new rows
      have hacc : acc' = { id := n.id, expected := n.version, path := v.1, level := v.2 } :: acc :=
        by rw [hacc', if_pos moved]
      let row : Placement := { id := n.id, expected := n.version, path := v.1, level := v.2 }
      have not_later : n.id ∉ rest.map Placement.id := by
        intro hm
        obtain ⟨r, hr, hrn⟩ := List.mem_map.1 hm
        obtain ⟨m, hm, hmr⟩ := List.mem_map.1 (hrest_ids r hr)
        exact hnd.1 m hm (hmr.trans hrn)
      refine ⟨final, row :: rest, by rw [hrows, hacc]; simp [row], keep_rest, hfpos, ?_, ?_⟩
      · intro r hr
        rcases List.mem_cons.1 hr with rfl | hr
        · exact List.mem_cons_self
        · exact List.mem_cons_of_mem _ (hrest_ids r hr)
      · intro m hm
        rcases List.mem_cons.1 hm with rfl | hm
        · refine ⟨p, pv, hpar, hp_final, hn_final, hlevel, ?_⟩
          have applied : rowsApplied (row :: rest) m = row.apply m := by
            have hself : (m.id == row.id) = true := by simp [row]
            simp only [rowsApplied, List.foldl_cons]
            rw [if_pos hself]
            exact rowsApplied_of_not_mem not_later
          rw [applied]
          rfl
        · exact (hplanned m hm).cons_of_ne (hnd.1 m hm)
    · -- `n` stays: it already stands at its derived value
      have hacc : acc' = acc := by rw [hacc', if_neg moved]
      refine ⟨final, rest, by rw [hrows, hacc], keep_rest, hfpos, fun r hr =>
        List.mem_cons_of_mem _ (hrest_ids r hr), ?_⟩
      intro m hm
      rcases List.mem_cons.1 hm with rfl | hm
      · refine ⟨p, pv, hpar, hp_final, hn_final, hlevel, ?_⟩
        have not_later : m.id ∉ rest.map Placement.id := by
          intro hm'
          obtain ⟨r, hr, hrn⟩ := List.mem_map.1 hm'
          obtain ⟨m', hm', hmr⟩ := List.mem_map.1 (hrest_ids r hr)
          exact hnd.1 m' hm' (hmr.trans hrn)
        rw [rowsApplied_of_not_mem not_later]
        simp only [Bool.or_eq_true, bne_iff_ne, ne_eq, not_or, Decidable.not_not] at moved
        exact Prod.ext moved.1.symm moved.2.symm
      · exact hplanned m hm

/-- A plan that starts from values within the maximum depth is refused as too deep, if at all,
one level past it: each unit is derived one level below a value the plan knows, and the plan
learns a value only once it passed the depth check. -/
theorem planRows_tooDeep {ns : List Entity} {derived : List (Ident × String × Int)}
    {acc : List Placement} {l m : Int} (hknown : ∀ d ∈ derived, d.2.2 ≤ st.maxDepth)
    (h : planRows st ns derived acc = .error (.tooDeep l m)) :
    l = st.maxDepth + 1 ∧ m = st.maxDepth := by
  induction ns generalizing derived acc with
  | nil => cases h
  | cons n ns ih =>
    unfold planRows at h
    split at h
    · cases h
    rename_i pp pl hparent
    -- the parent's level is one of the known values
    obtain ⟨p, -, hpl⟩ := Option.bind_eq_some_iff.1 hparent
    have hbound : pl ≤ st.maxDepth := hknown (p, pp, pl) (mem_of_lookup_eq_some hpl)
    simp only [Settings.childOf, Settings.checkDepth] at h
    by_cases hdeep : pl + 1 > st.maxDepth
    · simp only [hdeep, if_true, Except.error.injEq, Fault.tooDeep.injEq] at h
      omega
    · simp only [hdeep, if_false] at h
      -- the child passed the check, so every value known to the rest is still within the limit
      exact ih (fun d hd => by
        rcases List.mem_cons.1 hd with rfl | hd
        · simp only
          omega
        · exact hknown d hd) h

/-! ## §3 The cascade of a head -/

/-- What a successful cascade plan for `head` at `path` and `level` in store `s` guarantees,
with `final` the values it derived. -/
structure Plan (st : Settings) (s : Store) (head : Entity) (path : String) (level : Int)
    (rows : List Placement) (final : List (Ident × String × Int)) : Prop where
  /-- The head's value is the one given. -/
  headValue : final.lookup head.id = some (path, level)
  /-- No derived level is negative. -/
  nonneg : ∀ k v, final.lookup k = some v → 0 ≤ v.2
  /-- Values are derived for the head and its descendants only. -/
  keys : ∀ k, (final.lookup k).isSome → k = head.id ∨
    k ∈ (s.descendants head.id head.tenant).map Entity.id
  /-- Rows are written for descendants only. -/
  rowsBelow : ∀ r ∈ rows, r.id ∈ (s.descendants head.id head.tenant).map Entity.id
  /-- Every descendant is planned. -/
  planned : ∀ n ∈ s.descendants head.id head.tenant, Planned st final rows n

/-- The rows of a plan leave its head alone. -/
theorem Plan.head_not_mem_rows {s : Store} {head : Entity} {path : String} {level : Int}
    {rows : List Placement} {final : List (Ident × String × Int)}
    (hp : Plan st s head path level rows final) : head.id ∉ rows.map Placement.id := by
  intro hm
  obtain ⟨r, hr, hrx⟩ := List.mem_map.1 hm
  obtain ⟨d, hd, hdr⟩ := List.mem_map.1 (hp.rowsBelow r hr)
  exact (mem_descendants hd).2.2 (hdr.trans hrx)

/-- A cascade planned for a head in a keyed store, at a level that is not negative, is a
plan: every descendant is derived from the head's new values. -/
theorem planCascade_ok {f : Forest} {head : Entity} {path : String} {level : Int}
    {rows : List Placement} (hk : f.store.Keyed) (h : f.planCascade head path level = .ok rows)
    (hlevel : 0 ≤ level) : ∃ final, Plan f.settings f.store head path level rows final := by
  have hfresh : ∀ n ∈ f.store.descendants head.id head.tenant,
      n.id ∉ [(head.id, path, level)].map Prod.fst := by
    intro n hn
    simpa using (mem_descendants hn).2.2
  obtain ⟨final, rest, hrows, hkeep, hpos, hids, hplanned⟩ :=
    planRows_ok h (parentsFirst_descendants _ _ _) hk.nodup_descendants hfresh
      (by simpa using hlevel)
  simp only [List.reverse_nil, List.nil_append] at hrows
  subst hrows
  refine ⟨final, ?_, hpos, ?_, hids, hplanned⟩
  · rw [hkeep head.id (fun hm => ?_)]
    · simp [List.lookup]
    · obtain ⟨n, hn, hnid⟩ := List.mem_map.1 hm
      exact (mem_descendants hn).2.2 hnid
  · intro k hk'
    by_cases hd : k ∈ (f.store.descendants head.id head.tenant).map Entity.id
    · exact .inr hd
    · rw [hkeep k hd] at hk'
      by_cases hh : k = head.id
      · exact .inl hh
      · rw [lookup_cons_of_ne hh] at hk'
        cases hk'

/-- **A cascade is refused one level past the maximum depth.** When the head's new level lies
within the maximum depth, a plan refused as too deep names the level just past it. Every level
a cascade derives is therefore at most one more than the maximum depth; a maximum depth below
`2 ^ 31 - 1` keeps them all within 32 bits, and a maximum depth of `2 ^ 31 - 1` makes the
refused level `2 ^ 31`. -/
theorem planCascade_tooDeep {f : Forest} {head : Entity} {path : String} {level l m : Int}
    (hlevel : level ≤ f.settings.maxDepth)
    (h : f.planCascade head path level = .error (.tooDeep l m)) :
    l = f.settings.maxDepth + 1 ∧ m = f.settings.maxDepth :=
  planRows_tooDeep (by simpa using hlevel) h

end Forest

end TenantForest

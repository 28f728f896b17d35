import TenantForest.Proofs.IntegrityReport

/-!
# The ancestor climb on any store

`Store.ancestry` climbs from a unit along parent links through the active units of its tenant
and returns the units it passed, nearest first. On any store, however corrupt its links, and
under any depth bound `d` a setting can hold (not negative, a 32-bit integer), its answer is
decided by the climb as a relation, `Store.RootPath`:

* a start that is no active unit of the tenant is refused as missing, the only refusal of
  the not-found kind;
* a chain is returned exactly when the climb reaches a root within `d + 1` units, and the chain
  is then the root path, which never revisits a unit (`RootPath.nodup`);
* every other climb, one that leaves the active units of the tenant further up, runs into a
  cycle or needs more than `d + 1` units, is refused with an internal fault.

The cycle check `wouldCycle` answers for the unit itself at once and otherwise reads the chain
of the candidate parent, passing its refusal on.

Main statement: `ancestry_decided_by_root_path`.

  §1 The chain limit.
  §2 Root paths never revisit a unit.
  §3 The climb — after the start every refusal is internal, and what it returns fits the limit.
  §4 The answer of `ancestry` and of `wouldCycle`.
-/

namespace TenantForest

/-! ## §1 The chain limit -/

/-- A depth bound that is not negative, and one more than which fits a 64-bit word, gives the
chain limit `d + 1`. -/
theorem Walk.chainLimit_of_fits {d : Int} (h0 : 0 ≤ d) (h1 : d + 1 < 2 ^ 64) :
    Walk.chainLimit d = d.toNat + 1 := by
  rw [Walk.chainLimit_eq_mod, Int.emod_eq_of_lt h0 (by omega)]
  omega

/-! ## §2 Root paths never revisit a unit -/

namespace Store

variable {s : Store} {t : Ident}

/-- A root path never revisits a unit: a unit met twice would descend from itself, and a climb
that ends at a root runs into no cycle. -/
theorem RootPath.nodup {x : Ident} {c : List Entity} (h : s.RootPath t x c) :
    (c.map Entity.id).Nodup := by
  induction h with
  | root => simp
  | @climb x p e c he hp hc ih =>
    have link : s.ParentLink t x p := ⟨e, he, hp⟩
    have hid : e.id = x := (mem_of_active? he).2.1
    refine List.nodup_cons.2 ⟨fun hmem => ?_, ih⟩
    obtain ⟨u, hu, hux⟩ := List.mem_map.1 hmem
    rw [hid] at hux
    -- `x` further up its own root path would make the climb from `x` return to `x`
    have hloop : s.Descends t x x := by
      rcases hc.descends_of_mem hu with hup | hd
      · have hpx : p = x := hup.symm.trans hux
        exact .parent (hpx ▸ link)
      · exact .climb link (hux ▸ hd)
    exact (RootPath.climb he hp hc).not_cycle hloop hloop

end Store

/-! ## §3 The climb -/

namespace Walk

open Store

variable {s : Store} {t start : Ident} {limit : Nat}

/-- Once the climb has passed a unit it refuses only with an internal fault: the chain is
corrupt, or an ancestor is missing. -/
theorem climb_error_internal {fuel : Nat} {visited : List Ident} {chain : List Entity}
    {current : Ident} {f : Fault} (hc : chain ≠ [])
    (h : climb s t start limit fuel visited chain current = .error f) :
    f.category = .internal := by
  induction fuel generalizing visited chain current with
  | zero =>
    simp only [climb, Except.error.injEq] at h
    rw [← h]
    rfl
  | succ fuel ih =>
    simp only [climb] at h
    split at h
    · cases h
      rfl
    · split at h
      · -- the parent link leaves the active units of the tenant
        rw [if_neg (by simpa using hc)] at h
        cases h
        rfl
      · split at h
        · cases h
        · exact ih (List.cons_ne_nil _ _) h

/-- What the climb returns holds at most `limit` units: it adds a unit only while the chain is
shorter than that. -/
theorem climb_ok_length_le {fuel : Nat} {visited : List Ident} {chain : List Entity}
    {current : Ident} {res : List Entity}
    (h : climb s t start limit fuel visited chain current = .ok res) : res.length ≤ limit := by
  induction fuel generalizing visited chain current with
  | zero => simp [climb] at h
  | succ fuel ih =>
    simp only [climb] at h
    split at h
    · cases h
    · rename_i hroom
      split at h
      · split at h <;> cases h
      · split at h
        · simp only [Except.ok.injEq] at h
          subst h
          simp only [Bool.or_eq_true, decide_eq_true_eq, not_or, Nat.not_le] at hroom
          simp only [List.length_reverse, List.length_cons]
          omega
        · exact ih h

end Walk

/-! ## §4 The answer of `ancestry` and of `wouldCycle` -/

namespace Store

variable {s : Store} {t : Ident} {maxDepth : Int}

/-- A start that is no active unit of the tenant is refused as missing, when the limit leaves
room for one unit. -/
theorem ancestry_of_inactive {id : Ident} (hpos : 0 < Walk.chainLimit maxDepth)
    (h : s.active? id t = none) : s.ancestry maxDepth id t = .error (.unitMissing id) := by
  have room : ¬ 0 ≥ Walk.chainLimit maxDepth := by omega
  simp [ancestry, Walk.climb, room, h]

/-- From an active start, every refusal of the climb is internal. -/
theorem ancestry_error_internal {id : Ident} {e : Entity} {f : Fault}
    (hpos : 0 < Walk.chainLimit maxDepth) (he : s.active? id t = some e)
    (h : s.ancestry maxDepth id t = .error f) : f.category = .internal := by
  have room : ¬ 0 ≥ Walk.chainLimit maxDepth := by omega
  simp only [ancestry, Walk.climb, List.contains_nil, List.length_nil, room, decide_false,
    Bool.or_false, Bool.false_eq_true, if_false, he] at h
  cases hp : e.parent with
  | none => simp [hp] at h
  | some p =>
    rw [hp] at h
    exact Walk.climb_error_internal (List.cons_ne_nil _ _) h

/-- The climb is refused as not found exactly when the start is no active unit of the tenant,
when the limit leaves room for one unit. -/
theorem ancestry_notFound_iff {id : Ident} (hpos : 0 < Walk.chainLimit maxDepth) :
    (∃ f, s.ancestry maxDepth id t = .error f ∧ f.category = .notFound) ↔
      s.active? id t = none := by
  refine ⟨?_, fun h => ⟨_, ancestry_of_inactive hpos h, rfl⟩⟩
  rintro ⟨f, hf, hcat⟩
  cases hact : s.active? id t with
  | none => rfl
  | some e =>
    -- from an active start the refusal is internal
    have hint := ancestry_error_internal hpos hact hf
    rw [hcat] at hint
    cases hint

/-- A chain is returned exactly when it is the root path of the start, within the limit. -/
theorem ancestry_ok_iff {id : Ident} {limit : Nat} (hlim : Walk.chainLimit maxDepth = limit)
    {chain : List Entity} :
    s.ancestry maxDepth id t = .ok chain ↔ s.RootPath t id chain ∧ chain.length ≤ limit := by
  constructor
  · intro h
    exact ⟨Walk.ancestry_ok h, hlim ▸ Walk.climb_ok_length_le h⟩
  · rintro ⟨hr, hlen⟩
    have hnd := hr.nodup
    -- the root path fits the limit, and the fuel, one more than the units stored
    have climbed : Walk.climb s t id (Walk.chainLimit maxDepth) (s.entities.length + 1) [] [] id =
        .ok ([].reverse ++ chain) :=
      Walk.climb_of_rootPath hr hnd (by simp) (by simpa [hlim] using hlen)
        (by have := hr.length_le hnd; omega)
    simpa [ancestry] using climbed

/-- **The ancestor climb is decided by the root path.** On any store, under a depth bound `d`
with `0 ≤ d` that a 32-bit setting can hold, the ancestors of `id` in tenant `t`:

* are refused as not found exactly when `id` is no active unit of `t`, and then as missing;
* are returned as `chain` exactly when `chain` is the root path of `id` (active units of `t`
  linked to their parents up to a root), repeats no unit and holds at most `d + 1` units;
* are refused with an internal fault in every other case.

The cycle check for `moving` below `id` answers `true` when the two are the same unit, and
otherwise whether `moving` is on the chain of `id`, or the refusal of that chain. -/
theorem ancestry_decided_by_root_path (s : Store) (h0 : 0 ≤ maxDepth)
    (h1 : maxDepth ≤ 2 ^ 31 - 1) (id t : Ident) :
    ((∃ f, s.ancestry maxDepth id t = .error f ∧ f.category = .notFound) ↔
        s.active? id t = none) ∧
      (s.active? id t = none → s.ancestry maxDepth id t = .error (.unitMissing id)) ∧
      (∀ chain, s.ancestry maxDepth id t = .ok chain ↔
        s.RootPath t id chain ∧ (chain.map Entity.id).Nodup ∧
          (chain.length : Int) ≤ maxDepth + 1) ∧
      (∀ f, s.ancestry maxDepth id t = .error f → (s.active? id t).isSome →
        f.category = .internal) ∧
      ∀ moving, s.wouldCycle maxDepth moving id t =
        if moving = id then .ok true
        else (s.ancestry maxDepth id t).map fun chain => chain.any fun e => e.id == moving := by
  have hlim := Walk.chainLimit_of_fits h0 (by omega)
  have hpos : 0 < Walk.chainLimit maxDepth := by omega
  refine ⟨ancestry_notFound_iff hpos, ancestry_of_inactive hpos, fun chain => ?_,
    fun f h hsome => ?_, fun moving => ?_⟩
  · rw [ancestry_ok_iff hlim]
    constructor
    · rintro ⟨hr, hlen⟩
      exact ⟨hr, hr.nodup, by omega⟩
    · rintro ⟨hr, -, hlen⟩
      exact ⟨hr, by omega⟩
  · obtain ⟨e, he⟩ := Option.isSome_iff_exists.1 hsome
    exact ancestry_error_internal hpos he h
  · unfold wouldCycle
    by_cases hm : moving = id
    · simp [hm]
    · rw [if_neg (by simpa using hm), if_neg hm]
      cases s.ancestry maxDepth id t <;> rfl

/-- On two units that are each other's parent, the climb from `A` is decided by its root path,
of which there is none: it is refused with an internal fault. -/
theorem loop_ancestry_decided_by_root_path :
    (0 : Int) ≤ 32 ∧ (32 : Int) ≤ 2 ^ 31 - 1 ∧
      ((∃ f, loopStore.ancestry 32 (Ident.serial 1) (Ident.ofNat 1) = .error f ∧
          f.category = .notFound) ↔ loopStore.active? (Ident.serial 1) (Ident.ofNat 1) = none) ∧
      (loopStore.active? (Ident.serial 1) (Ident.ofNat 1) = none →
        loopStore.ancestry 32 (Ident.serial 1) (Ident.ofNat 1) =
          .error (.unitMissing (Ident.serial 1))) ∧
      (∀ chain, loopStore.ancestry 32 (Ident.serial 1) (Ident.ofNat 1) = .ok chain ↔
        loopStore.RootPath (Ident.ofNat 1) (Ident.serial 1) chain ∧
          (chain.map Entity.id).Nodup ∧ (chain.length : Int) ≤ 32 + 1) ∧
      (∀ f, loopStore.ancestry 32 (Ident.serial 1) (Ident.ofNat 1) = .error f →
        (loopStore.active? (Ident.serial 1) (Ident.ofNat 1)).isSome →
        f.category = .internal) ∧
      ∀ moving, loopStore.wouldCycle 32 moving (Ident.serial 1) (Ident.ofNat 1) =
        if moving = Ident.serial 1 then .ok true
        else (loopStore.ancestry 32 (Ident.serial 1) (Ident.ofNat 1)).map
          fun chain => chain.any fun e => e.id == moving :=
  ⟨by decide, by decide,
    ancestry_decided_by_root_path loopStore (by decide) (by decide) (Ident.serial 1) (Ident.ofNat 1)⟩

/-- The climb from `A` meets `B` and then `A` again. -/
example : (match loopStore.ancestry 32 (Ident.serial 1) (Ident.ofNat 1) with
    | .error f => some f
    | .ok _ => none) = some (.chainCorrupt (Ident.serial 1)) := by
  decide +kernel

end Store

end TenantForest
